/-
# What the text of a JSON value determines

Two values with one compact text have the same shape, the same strings and booleans, and numbers
with one text in the same places.  That is `Json.Alike`, and `Json.alike_of_text` is the
statement.  Nothing stronger holds of all numbers, since a single and a double may be written
alike.

A text carries no end mark, so the induction runs over texts with something BEHIND them, and each
kind of value is shown to end where it ends.

* What follows a value inside a container is a comma or a closing bracket, and no number holds one
  of these (`append_inj_of_numeral`).
* No written character is the beginning of another one, and none begins with a quote
  (`escapeChar_append_inj`, `escapeChar_append_ne_quote`), so strings end at the first quote that
  is not escaped (`quote_append_inj`).
* A value never begins where a container could go on or end (`Json.write_append_ne_boundary`), so
  a list of items is as long as another one with the same text.

`Json.alike_of_write_append` is the induction over values that puts these together.
-/
import DocQuery.Json.Token
import DocQuery.Json.Writer

namespace DocQuery

/-! ## 1. The characters of a number -/

/-- The characters that occur in the text of a number. -/
def isNumeral (c : Char) : Bool := c.isDigit || c == '-' || c == '+' || c == '.' || c == 'e'

namespace Layout

theorem isNumeral_of_mem_digitsOf {n : Nat} {c : Char} (h : c ∈ digitsOf n) : isNumeral c := by
  have hd : c.isDigit = true := Nat.isDigit_of_mem_toDigits (by decide) (by decide) h
  simp [isNumeral, hd]

theorem digitsOf_ne_nil (n : Nat) : digitsOf n ≠ [] := Nat.toDigits_ne_nil

theorem digitsOf_injective {m n : Nat} (h : digitsOf m = digitsOf n) : m = n := by
  have := congrArg (Nat.ofDigitChars 10 · 0) h
  simpa [digitsOf] using this

theorem isNumeral_of_mem_integerText {n : Int} {c : Char} (h : c ∈ integerText n) :
    isNumeral c := by
  unfold integerText at h
  split at h
  · rcases List.mem_cons.1 h with rfl | h
    · decide
    · exact isNumeral_of_mem_digitsOf h
  · exact isNumeral_of_mem_digitsOf h

theorem integerText_ne_nil (n : Int) : integerText n ≠ [] := by
  unfold integerText
  split
  · exact List.cons_ne_nil _ _
  · exact digitsOf_ne_nil _

/-- A minus sign is no digit, so the sign of an integer can be read off its text. -/
theorem integerText_injective {m n : Int} (h : integerText m = integerText n) : m = n := by
  have minus : ∀ k : Nat, ∀ rest, digitsOf k ≠ '-' :: rest := by
    intro k rest hk
    have hmem : '-' ∈ Nat.toDigits 10 k := by
      rw [← digitsOf, hk]
      exact List.mem_cons_self
    exact absurd (Nat.isDigit_of_mem_toDigits (by decide) (by decide) hmem) (by decide)
  unfold integerText at h
  split at h <;> split at h
  · have := digitsOf_injective (List.cons.inj h).2
    omega
  · exact absurd h.symm (minus _ _)
  · exact absurd h (minus _ _)
  · have := digitsOf_injective h
    omega

theorem isNumeral_of_mem_positionalText {keeps : Bool} {digits : List Char} {exponent : Int}
    (hd : ∀ c ∈ digits, isNumeral c) {c : Char} (h : c ∈ positionalText keeps digits exponent) :
    isNumeral c := by
  have zero : ∀ {k}, ∀ c ∈ zeros k, isNumeral c := by
    intro k c hc
    rw [List.eq_of_mem_replicate hc]
    decide
  simp only [positionalText] at h
  split at h
  · rcases List.mem_append.1 h with h | h
    · rcases List.mem_append.1 h with h | h
      · exact hd c h
      · exact zero c h
    · split at h
      · rcases List.mem_cons.1 h with rfl | h
        · decide
        · rw [List.mem_singleton.1 h]; decide
      · exact absurd h List.not_mem_nil
  · split at h
    · rcases List.mem_append.1 h with h | h
      · exact hd c (List.mem_of_mem_take h)
      · rcases List.mem_cons.1 h with rfl | h
        · decide
        · exact hd c (List.mem_of_mem_drop h)
    · rcases List.mem_cons.1 h with rfl | h
      · decide
      · rcases List.mem_cons.1 h with rfl | h
        · decide
        · rcases List.mem_append.1 h with h | h
          · exact zero c h
          · exact hd c h

theorem isNumeral_of_mem_scientificText {signs : Bool} {digits : List Char} {exponent : Int}
    (hd : ∀ c ∈ digits, isNumeral c) {c : Char} (h : c ∈ scientificText signs digits exponent) :
    isNumeral c := by
  simp only [scientificText] at h
  rcases List.mem_append.1 h with h | h
  · rcases List.mem_append.1 h with h | h
    · split at h
      · exact absurd h List.not_mem_nil
      · exact hd c h
      · rcases List.mem_cons.1 h with rfl | h
        · exact hd _ List.mem_cons_self
        · rcases List.mem_cons.1 h with rfl | h
          · decide
          · exact hd c (List.mem_cons_of_mem _ h)
    · rcases List.mem_cons.1 h with rfl | h
      · decide
      · split at h
        · rw [List.mem_singleton.1 h]; decide
        · split at h
          · rw [List.mem_singleton.1 h]; decide
          · exact absurd h List.not_mem_nil
  · exact isNumeral_of_mem_digitsOf h

theorem positionalText_ne_nil {keeps : Bool} {digits : List Char} {exponent : Int}
    (hd : digits ≠ []) : positionalText keeps digits exponent ≠ [] := by
  simp only [positionalText]
  split
  · simp [hd]
  · split <;> simp

theorem scientificText_ne_nil (signs : Bool) (digits : List Char) (exponent : Int) :
    scientificText signs digits exponent ≠ [] := by
  simp [scientificText]

/-- Whatever holds of both notations of digits holds of every text, behind its sign. -/
theorem write_induction {P : List Char → Prop} (l : Layout) (x : Finite)
    (sign : ∀ body, P body → P (['-'] ++ body))
    (positional : ∀ n exponent, P (positionalText l.keepsFraction (digitsOf n) exponent))
    (scientific : ∀ n exponent, P (scientificText l.signsExponent (digitsOf n) exponent)) :
    P (l.write x) := by
  have signed : ∀ body, P body → P ((if x.negative then ['-'] else []) ++ body) := by
    intro body h
    split
    · exact sign body h
    · exact h
  unfold write
  refine signed _ (iteInduction (fun _ => positional 0 0) fun _ => ?_)
  exact iteInduction (fun _ => positional _ _) fun _ => scientific _ _

theorem isNumeral_of_mem_write {l : Layout} {x : Finite} : ∀ c ∈ l.write x, isNumeral c := by
  have digits : ∀ n, ∀ d ∈ digitsOf n, isNumeral d := fun _ _ => isNumeral_of_mem_digitsOf
  refine write_induction (P := fun text => ∀ c ∈ text, isNumeral c) l x ?_ ?_ ?_
  · intro body h c hc
    rcases List.mem_cons.1 hc with rfl | hc
    · decide
    · exact h c hc
  · intro n _ c hc
    exact isNumeral_of_mem_positionalText (digits n) hc
  · intro n _ c hc
    exact isNumeral_of_mem_scientificText (digits n) hc

theorem write_ne_nil (l : Layout) (x : Finite) : l.write x ≠ [] := by
  refine write_induction (P := (· ≠ [])) l x ?_ ?_ ?_
  · intro body _
    exact List.cons_ne_nil _ _
  · intro n _
    exact positionalText_ne_nil (digitsOf_ne_nil n)
  · intro n _
    exact scientificText_ne_nil _ _ _

end Layout

namespace Number

theorem isNumeral_of_mem_write {n : Number} {c : Char} (h : c ∈ n.write) : isNumeral c := by
  cases n with
  | integer i => exact Layout.isNumeral_of_mem_integerText h
  | double x => exact Layout.isNumeral_of_mem_write c h
  | single x => exact Layout.isNumeral_of_mem_write c h

theorem write_ne_nil (n : Number) : n.write ≠ [] := by
  cases n with
  | integer i => exact Layout.integerText_ne_nil i
  | double x => exact Layout.write_ne_nil _ x
  | single x => exact Layout.write_ne_nil _ x

/-- The text of a number begins with one of its characters. -/
theorem write_eq_cons (n : Number) : ∃ c rest, n.write = c :: rest ∧ isNumeral c := by
  cases h : n.write with
  | nil => exact absurd h n.write_ne_nil
  | cons c rest => exact ⟨c, rest, rfl, n.isNumeral_of_mem_write (h ▸ List.mem_cons_self)⟩

end Number

/-! ## 2. Where a number ends -/

/-- The end of the text, or a character that can follow a value inside a container. -/
def AtBoundary : List Char → Prop
  | [] => True
  | c :: _ => c = ',' ∨ c = ']' ∨ c = '}'

theorem not_isNumeral_of_boundary {c : Char} {rest : List Char} (h : AtBoundary (c :: rest)) :
    ¬ isNumeral c := by
  rcases h with rfl | rfl | rfl <;> decide

/-- A run of characters of one kind is over: the next is of another, if there is one. -/
def Stops (p : Char → Bool) (r : List Char) : Prop := ∀ c ∈ r.head?, ¬ p c

theorem stops_nil {p : Char → Bool} : Stops p [] := nofun

theorem stops_cons {p : Char → Bool} {c : Char} (h : ¬ p c) (rest : List Char) :
    Stops p (c :: rest) := by
  rintro d ⟨⟩
  exact h

/-- Runs of one kind of characters are equal when they are equal together with what follows them. -/
theorem append_inj_of_all {p : Char → Bool} : ∀ {m n r s : List Char},
    (∀ c ∈ m, p c) → (∀ c ∈ n, p c) → Stops p r → Stops p s → m ++ r = n ++ s → m = n ∧ r = s
  | [], [], _, _, _, _, _, _, h => ⟨rfl, h⟩
  | [], d :: n, _, s, _, hn, hr, _, h => by
    rw [List.nil_append, List.cons_append] at h
    subst h
    exact absurd (hn d List.mem_cons_self) (hr d rfl)
  | c :: m, [], _, s, hm, _, _, hs, h => by
    rw [List.nil_append, List.cons_append] at h
    subst h
    exact absurd (hm c List.mem_cons_self) (hs c rfl)
  | c :: m, d :: n, r, s, hm, hn, hr, hs, h => by
    obtain ⟨rfl, htail⟩ := List.cons.inj h
    obtain ⟨rfl, hrs⟩ := append_inj_of_all (fun x hx => hm x (List.mem_cons_of_mem _ hx))
      (fun x hx => hn x (List.mem_cons_of_mem _ hx)) hr hs htail
    exact ⟨rfl, hrs⟩

/-- Texts of numbers that are equal together with what follows them are equal. -/
theorem append_inj_of_numeral {m n r s : List Char} (hm : ∀ c ∈ m, isNumeral c)
    (hn : ∀ c ∈ n, isNumeral c) (hr : AtBoundary r) (hs : AtBoundary s) (h : m ++ r = n ++ s) :
    m = n ∧ r = s := by
  have stops : ∀ {t : List Char}, AtBoundary t → Stops isNumeral t := by
    intro t ht
    cases t with
    | nil => exact stops_nil
    | cons d rest => exact stops_cons (not_isNumeral_of_boundary ht) rest
  exact append_inj_of_all hm hn (stops hr) (stops hs) h

/-! ## 3. Where a string ends -/

namespace Json

theorem hexDigit_injective : ∀ m < 16, ∀ n < 16, hexDigit m = hexDigit n → m = n := by decide

/-- The three forms in which a character is written. -/
theorem escapeChar_cases (c : Char) :
    (escapeChar c = [c] ∧ c ≠ '"' ∧ c ≠ '\\') ∨
    (∃ k, escapeChar c = ['\\', k] ∧ shortEscape? k = some c) ∨
    (escapeChar c = ['\\', 'u', '0', '0', hexDigit (c.toNat / 16), hexDigit c.toNat] ∧
      c.toNat < 32) := by
  by_cases h1 : c = '"'
  · subst h1; exact .inr (.inl ⟨'"', by decide⟩)
  by_cases h2 : c = '\\'
  · subst h2; exact .inr (.inl ⟨'\\', by decide⟩)
  by_cases h3 : c = '\x08'
  · subst h3; exact .inr (.inl ⟨'b', by decide⟩)
  by_cases h4 : c = '\t'
  · subst h4; exact .inr (.inl ⟨'t', by decide⟩)
  by_cases h5 : c = '\n'
  · subst h5; exact .inr (.inl ⟨'n', by decide⟩)
  by_cases h6 : c = '\x0c'
  · subst h6; exact .inr (.inl ⟨'f', by decide⟩)
  by_cases h7 : c = '\r'
  · subst h7; exact .inr (.inl ⟨'r', by decide⟩)
  by_cases h8 : c.toNat < 32
  · exact .inr (.inr ⟨by simp [escapeChar, h1, h2, h3, h4, h5, h6, h7, h8], h8⟩)
  · exact .inl ⟨by simp [escapeChar, h1, h2, h3, h4, h5, h6, h7, h8], h1, h2⟩

/-- No written character is the beginning of another one. -/
theorem escapeChar_append_inj {c d : Char} {x y : List Char}
    (h : escapeChar c ++ x = escapeChar d ++ y) : c = d ∧ x = y := by
  rcases escapeChar_cases c with ⟨hc, -, hc'⟩ | ⟨k, hc, hk⟩ | ⟨hc, hc'⟩ <;>
    rcases escapeChar_cases d with ⟨hd, -, hd'⟩ | ⟨l, hd, hl⟩ | ⟨hd, hd'⟩ <;>
    rw [hc, hd] at h <;> simp only [List.cons_append, List.nil_append, List.cons.injEq] at h
  · exact h
  · exact absurd h.1 hc'
  · exact absurd h.1 hc'
  · exact absurd h.1.symm hd'
  · obtain ⟨-, rfl, hxy⟩ := h
    exact ⟨Option.some.inj (hk.symm.trans hl), hxy⟩
  · obtain ⟨-, rfl, -⟩ := h
    exact absurd hk (by simp [shortEscape?])
  · exact absurd h.1.symm hd'
  · obtain ⟨-, rfl, -⟩ := h
    exact absurd hl (by simp [shortEscape?])
  · obtain ⟨-, -, -, -, high, low, hxy⟩ := h
    have highs := hexDigit_injective _ (by omega) _ (by omega) high
    have lows : c.toNat % 16 = d.toNat % 16 :=
      hexDigit_injective _ (by omega) _ (by omega) (by simpa [hexDigit] using low)
    exact ⟨Char.toNat_inj.1 (by omega), hxy⟩

/-- No character is written with a quote at its beginning. -/
theorem escapeChar_append_ne_quote (c : Char) (x y : List Char) : escapeChar c ++ x ≠ '"' :: y := by
  intro h
  rcases escapeChar_cases c with ⟨hc, hc', -⟩ | ⟨k, hc, -⟩ | ⟨hc, -⟩ <;>
    rw [hc] at h <;> simp only [List.cons_append, List.cons.injEq] at h
  · exact hc' h.1
  · exact absurd h.1 (by decide)
  · exact absurd h.1 (by decide)

theorem escaped_append_inj : ∀ {cs ds x y : List Char},
    cs.flatMap escapeChar ++ '"' :: x = ds.flatMap escapeChar ++ '"' :: y → cs = ds ∧ x = y
  | [], [], _, _, h => ⟨rfl, (List.cons.inj h).2⟩
  | [], d :: ds, _, _, h => by
    rw [List.flatMap_cons, List.append_assoc] at h
    exact absurd h.symm (escapeChar_append_ne_quote _ _ _)
  | c :: cs, [], _, _, h => by
    rw [List.flatMap_cons, List.append_assoc] at h
    exact absurd h (escapeChar_append_ne_quote _ _ _)
  | c :: cs, d :: ds, x, y, h => by
    rw [List.flatMap_cons, List.flatMap_cons, List.append_assoc, List.append_assoc] at h
    obtain ⟨rfl, htail⟩ := escapeChar_append_inj h
    obtain ⟨rfl, hxy⟩ := escaped_append_inj htail
    exact ⟨rfl, hxy⟩

/-- Quoted strings that are equal together with what follows them are equal. -/
theorem quote_append_inj {s t : String} {x y : List Char} (h : quote s ++ x = quote t ++ y) :
    s = t ∧ x = y := by
  simp only [quote, List.cons_append, List.append_assoc, List.cons.injEq, true_and,
    List.nil_append] at h
  obtain ⟨hst, hxy⟩ := escaped_append_inj h
  exact ⟨String.toList_inj.1 hst, hxy⟩

/-! ## 4. Where a value ends -/

mutual

/-- Values written alike: equal but for their numbers, of which only the texts are. -/
def Alike : Json → Json → Prop
  | .null, .null => True
  | .bool a, .bool b => a = b
  | .number m, .number n => m.write = n.write
  | .string a, .string b => a = b
  | .array a, .array b => AlikeItems a b
  | .object a, .object b => AlikeMembers a b
  | _, _ => False

def AlikeItems : List Json → List Json → Prop
  | [], [] => True
  | a :: as, b :: bs => Alike a b ∧ AlikeItems as bs
  | _, _ => False

def AlikeMembers : List (String × Json) → List (String × Json) → Prop
  | [], [] => True
  | (m, a) :: as, (n, b) :: bs => m = n ∧ Alike a b ∧ AlikeMembers as bs
  | _, _ => False

end

/-- What a value begins with; `0` stands for the characters of numbers. -/
def opening : Json → Char
  | .null => 'n'
  | .bool true => 't'
  | .bool false => 'f'
  | .number _ => '0'
  | .string _ => '"'
  | .array _ => '['
  | .object _ => '\x7b'

/-- The beginning that a character stands for. -/
def openingOf (c : Char) : Char := if isNumeral c then '0' else c

theorem write_opening (j : Json) : ∃ c rest, j.write = c :: rest ∧ openingOf c = j.opening := by
  cases j with
  | null => exact ⟨_, _, by rw [write], by decide⟩
  | bool b =>
    cases b with
    | true => exact ⟨_, _, by rw [write], by decide⟩
    | false => exact ⟨_, _, by rw [write], by decide⟩
  | number n =>
    obtain ⟨c, rest, hn, hc⟩ := n.write_eq_cons
    exact ⟨c, rest, by rw [write, hn], by simp [openingOf, hc, opening]⟩
  | string s => exact ⟨_, _, by rw [write, quote]; rfl, by simp [opening]; decide⟩
  | array items => exact ⟨_, _, by rw [write]; rfl, by simp [opening]; decide⟩
  | object members => exact ⟨_, _, by rw [write]; rfl, by simp [opening]; decide⟩

theorem opening_eq_of_write_append {a b : Json} {r s : List Char}
    (h : a.write ++ r = b.write ++ s) : a.opening = b.opening := by
  obtain ⟨c, x, ha, hc⟩ := a.write_opening
  obtain ⟨d, y, hb, hd⟩ := b.write_opening
  rw [ha, hb, List.cons_append, List.cons_append] at h
  rw [← hc, ← hd, (List.cons.inj h).1]

/-- A value never begins where a container could go on or end. -/
theorem write_append_ne_boundary (j : Json) (x : List Char) {c : Char} {y : List Char}
    (hb : AtBoundary (c :: y)) : j.write ++ x ≠ c :: y := by
  obtain ⟨d, rest, hj, hd⟩ := j.write_opening
  intro h
  rw [hj, List.cons_append] at h
  obtain ⟨rfl, -⟩ := List.cons.inj h
  have closing : j.opening ≠ ',' ∧ j.opening ≠ ']' ∧ j.opening ≠ '}' := by
    rcases j with _ | (_ | _) | _ | _ | _ | _ <;> simp only [opening] <;> decide
  rw [← hd] at closing
  rcases hb with rfl | rfl | rfl
  · exact closing.1 (by decide)
  · exact closing.2.1 (by decide)
  · exact closing.2.2 (by decide)

theorem atBoundary_end : AtBoundary [] := trivial

theorem atBoundary_bracket (r : List Char) : AtBoundary (']' :: r) := .inr (.inl rfl)

theorem atBoundary_brace (r : List Char) : AtBoundary ('}' :: r) := .inr (.inr rfl)

theorem atBoundary_comma (r : List Char) : AtBoundary (',' :: r) := .inl rfl

/-- What stands behind the first item of an array that goes on with `rest`. -/
def itemsTail : List Json → List Char
  | [] => []
  | rest => ',' :: writeItems rest

theorem writeItems_cons (j : Json) (rest : List Json) :
    writeItems (j :: rest) = j.write ++ itemsTail rest := by
  cases rest with
  | nil => rw [writeItems, itemsTail, List.append_nil]
  | cons k rest => rw [writeItems, itemsTail] <;> exact List.cons_ne_nil _ _

theorem atBoundary_itemsTail (rest : List Json) (r : List Char) :
    AtBoundary (itemsTail rest ++ ']' :: r) := by
  cases rest with
  | nil => exact atBoundary_bracket r
  | cons k rest => exact atBoundary_comma _

/-- What stands behind the first member of an object that goes on with `rest`. -/
def membersTail : List (String × Json) → List Char
  | [] => []
  | rest => ',' :: writeMembers rest

theorem writeMembers_cons (name : String) (j : Json) (rest : List (String × Json)) :
    writeMembers ((name, j) :: rest) = quote name ++ ':' :: (j.write ++ membersTail rest) := by
  cases rest with
  | nil => rw [writeMembers, membersTail, List.append_nil]
  | cons k rest =>
    rw [writeMembers, membersTail, List.append_assoc, List.cons_append] <;>
      exact List.cons_ne_nil _ _

theorem atBoundary_membersTail (rest : List (String × Json)) (r : List Char) :
    AtBoundary (membersTail rest ++ '}' :: r) := by
  cases rest with
  | nil => exact atBoundary_brace r
  | cons k rest => exact atBoundary_comma _

mutual

/-- **Values whose texts agree together with what follows them are alike.**  The induction is on
the first value; what the second one is can be read off its beginning. -/
theorem alike_of_write_append : ∀ (a b : Json) {r s : List Char}, AtBoundary r → AtBoundary s →
    a.write ++ r = b.write ++ s → Alike a b ∧ r = s
  | .null, b, r, s, _, _, h => by
    have kind := opening_eq_of_write_append h
    rcases b with _ | (_ | _) | _ | _ | _ | _ <;> simp [opening] at kind
    simp only [write, List.append_cancel_left_eq] at h
    exact ⟨by rw [Alike]; trivial, h⟩
  | .bool x, b, r, s, _, _, h => by
    have kind := opening_eq_of_write_append h
    rcases x with _ | _ <;> rcases b with _ | (_ | _) | _ | _ | _ | _ <;>
      simp [opening] at kind <;> simp only [write, List.append_cancel_left_eq] at h <;>
      exact ⟨by rw [Alike], h⟩
  | .number m, b, r, s, hr, hs, h => by
    have kind := opening_eq_of_write_append h
    rcases b with _ | (_ | _) | n | _ | _ | _ <;> simp [opening] at kind
    rw [write, write] at h
    obtain ⟨hmn, hrs⟩ := append_inj_of_numeral (fun _ => m.isNumeral_of_mem_write)
      (fun _ => n.isNumeral_of_mem_write) hr hs h
    exact ⟨by rw [Alike]; exact hmn, hrs⟩
  | .string x, b, r, s, _, _, h => by
    have kind := opening_eq_of_write_append h
    rcases b with _ | (_ | _) | _ | y | _ | _ <;> simp [opening] at kind
    rw [write, write] at h
    obtain ⟨hxy, hrs⟩ := quote_append_inj h
    exact ⟨by rw [Alike]; exact hxy, hrs⟩
  | .array x, b, r, s, _, _, h => by
    have kind := opening_eq_of_write_append h
    rcases b with _ | (_ | _) | _ | _ | y | _ <;> simp [opening] at kind
    simp only [write, List.cons_append, List.append_assoc, List.nil_append, List.cons.injEq,
      true_and] at h
    obtain ⟨hxy, hrs⟩ := alikeItems_of_writeItems_append x y h
    exact ⟨by rw [Alike]; exact hxy, hrs⟩
  | .object x, b, r, s, _, _, h => by
    have kind := opening_eq_of_write_append h
    rcases b with _ | (_ | _) | _ | _ | _ | y <;> simp [opening] at kind
    simp only [write, List.cons_append, List.append_assoc, List.nil_append, List.cons.injEq,
      true_and] at h
    obtain ⟨hxy, hrs⟩ := alikeMembers_of_writeMembers_append x y h
    exact ⟨by rw [Alike]; exact hxy, hrs⟩

theorem alikeItems_of_writeItems_append : ∀ (as bs : List Json) {r s : List Char},
    writeItems as ++ ']' :: r = writeItems bs ++ ']' :: s → AlikeItems as bs ∧ r = s
  | [], [], r, s, h => ⟨by rw [AlikeItems]; trivial, (List.cons.inj h).2⟩
  | [], b :: bs, r, s, h => by
    rw [writeItems_cons, List.append_assoc] at h
    exact absurd h.symm (write_append_ne_boundary b _ (atBoundary_bracket r))
  | a :: as, [], r, s, h => by
    rw [writeItems_cons, List.append_assoc] at h
    exact absurd h (write_append_ne_boundary a _ (atBoundary_bracket s))
  | a :: as, b :: bs, r, s, h => by
    rw [writeItems_cons, writeItems_cons, List.append_assoc, List.append_assoc] at h
    obtain ⟨hab, htail⟩ := alike_of_write_append a b (atBoundary_itemsTail as r)
      (atBoundary_itemsTail bs s) h
    have rest : AlikeItems as bs ∧ r = s := by
      rcases as with _ | ⟨a', as⟩ <;> rcases bs with _ | ⟨b', bs⟩ <;>
        simp only [itemsTail, List.nil_append, List.cons_append, List.cons.injEq] at htail
      · exact ⟨by rw [AlikeItems]; trivial, htail.2⟩
      · exact absurd htail.1 (by decide)
      · exact absurd htail.1 (by decide)
      · exact alikeItems_of_writeItems_append (a' :: as) (b' :: bs) htail.2
    exact ⟨by rw [AlikeItems]; exact ⟨hab, rest.1⟩, rest.2⟩

theorem alikeMembers_of_writeMembers_append : ∀ (as bs : List (String × Json)) {r s : List Char},
    writeMembers as ++ '}' :: r = writeMembers bs ++ '}' :: s → AlikeMembers as bs ∧ r = s
  | [], [], r, s, h => ⟨by rw [AlikeMembers]; trivial, (List.cons.inj h).2⟩
  | [], (n, b) :: bs, r, s, h => by
    rw [writeMembers_cons] at h
    exact absurd (List.cons.inj h).1 (by decide)
  | (m, a) :: as, [], r, s, h => by
    rw [writeMembers_cons] at h
    exact absurd (List.cons.inj h).1 (by decide)
  | (m, a) :: as, (n, b) :: bs, r, s, h => by
    simp only [writeMembers_cons, List.append_assoc, List.cons_append] at h
    obtain ⟨hmn, hvalue⟩ := quote_append_inj h
    obtain ⟨hab, htail⟩ := alike_of_write_append a b (atBoundary_membersTail as r)
      (atBoundary_membersTail bs s) (List.cons.inj hvalue).2
    have rest : AlikeMembers as bs ∧ r = s := by
      rcases as with _ | ⟨a', as⟩ <;> rcases bs with _ | ⟨b', bs⟩ <;>
        simp only [membersTail, List.nil_append, List.cons_append, List.cons.injEq] at htail
      · exact ⟨by rw [AlikeMembers]; trivial, htail.2⟩
      · exact absurd htail.1 (by decide)
      · exact absurd htail.1 (by decide)
      · exact alikeMembers_of_writeMembers_append (a' :: as) (b' :: bs) htail.2
    exact ⟨by rw [AlikeMembers]; exact ⟨hmn, hab, rest.1⟩, rest.2⟩

end

/-- **The text of a value determines it up to the texts of its numbers.** -/
theorem alike_of_text {a b : Json} (h : a.text = b.text) : Alike a b := by
  have hw : a.write ++ [] = b.write ++ [] := by
    rw [List.append_nil, List.append_nil]
    exact String.ofList_injective h
  exact (alike_of_write_append a b atBoundary_end atBoundary_end hw).1

end Json

end DocQuery
