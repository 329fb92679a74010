/-
# Reading what was written

The reader gives back every value whose numbers are integers of 64 bits, if it is nested no deeper
than the reader's stack allows (`Json.parse_text`).  Fractions are left out: their digits say less
than their value.

* **Tokens.**  The text of a value is first cut into the value's own tokens (`Json.lex_write`),
  whatever begins behind it, as long as it can follow a value inside a container.  Literals need
  that: a number would go on with a digit behind it.
* **Values.**  These tokens then take the reader from a place where it expects a value to the
  place where the value has been delivered (`Json.read_tokens`).  The reader has a stack of open
  containers, so the statement is for every stack with enough room; the items of an array and the
  members of an object deliver to the container on top of it.

Strings are read character by character: an escaped character is collected as itself
(`Json.lex_escapeChar`).  Members that come in ascending order are read into the same dictionary.
-/
import DocQuery.Json.Reader
import DocQuery.Proofs.JsonText

namespace DocQuery

namespace Json

/-! ## 1. Values, their depth and their tokens -/

/-- The integers that a literal can be: the signed and the unsigned words of 64 bits. -/
def IsWord (n : Int) : Prop := -0x8000000000000000 ≤ n ∧ n < 0x10000000000000000

mutual

/-- Every number is an integer of 64 bits. -/
def Exact : Json → Prop
  | .null | .bool _ | .string _ => True
  | .number (.integer n) => IsWord n
  | .number (.double _) | .number (.single _) => False
  | .array items => ExactItems items
  | .object members => ExactMembers members

def ExactItems : List Json → Prop
  | [] => True
  | j :: rest => Exact j ∧ ExactItems rest

def ExactMembers : List (String × Json) → Prop
  | [] => True
  | (_, j) :: rest => Exact j ∧ ExactMembers rest

end

mutual

/-- How many containers the innermost value is in. -/
def depth : Json → Nat
  | .null | .bool _ | .number _ | .string _ => 0
  | .array items => depthOfItems items + 1
  | .object members => depthOfMembers members + 1

def depthOfItems : List Json → Nat
  | [] => 0
  | j :: rest => max (depth j) (depthOfItems rest)

def depthOfMembers : List (String × Json) → Nat
  | [] => 0
  | (_, j) :: rest => max (depth j) (depthOfMembers rest)

end

mutual

/-- The tokens of a value. -/
def tokens : Json → List Token
  | .null => [.literal .null]
  | .bool b => [.literal (.bool b)]
  | .number n => [.literal (.number n)]
  | .string s => [.text s]
  | .array [] => [.openBracket, .closeBracket]
  | .array (j :: rest) => .openBracket :: (tokens j ++ (moreItems rest ++ [.closeBracket]))
  | .object [] => [.openBrace, .closeBrace]
  | .object ((name, j) :: rest) =>
    .openBrace :: .text name :: .colon :: (tokens j ++ (moreMembers rest ++ [.closeBrace]))

/-- The items behind the first one, each behind a comma. -/
def moreItems : List Json → List Token
  | [] => []
  | j :: rest => .comma :: (tokens j ++ moreItems rest)

def moreMembers : List (String × Json) → List Token
  | [] => []
  | (name, j) :: rest => .comma :: .text name :: .colon :: (tokens j ++ moreMembers rest)

end

/-! ## 2. The tokens of the text -/

theorem tokensFrom?_cons (mode : LexMode) (c : Char) (rest : List Char) :
    tokensFrom? mode (c :: rest) =
      (lexStep mode c).bind fun r => (tokensFrom? r.2 rest).map (r.1 ++ ·) := by
  rw [tokensFrom?]
  rcases lexStep mode c with _ | ⟨ts, next⟩
  · rfl
  · cases h : tokensFrom? next rest <;> simp [h]

/-- A character that completes no token. -/
theorem lex_silent {mode : LexMode} {c : Char} (next : LexMode)
    (h : lexStep mode c = some ([], next)) (rest : List Char) :
    tokensFrom? mode (c :: rest) = tokensFrom? next rest := by
  rw [tokensFrom?_cons, h]
  simp

/-- A character that is a token of its own. -/
theorem lex_mark {c : Char} {t : Token} (h : lexBetween c = some ([t], .between))
    (rest : List Char) :
    tokensFrom? .between (c :: rest) = (tokensFrom? .between rest).map (t :: ·) := by
  rw [tokensFrom?_cons, lexStep, h]
  rfl

/-! ### Numbers and words -/

theorem not_isBlank_of_isLiteralChar {c : Char} (h : isLiteralChar c) : isBlank c = false := by
  rw [Bool.eq_false_iff]
  intro blank
  simp only [isBlank, Bool.or_eq_true, beq_iff_eq] at blank
  rcases blank with ((rfl | rfl) | rfl) | rfl <;> exact absurd h (by decide)

theorem not_isLiteralChar_of_boundary {c : Char} {rest : List Char} (h : AtBoundary (c :: rest)) :
    isLiteralChar c = false := by
  rcases h with rfl | rfl | rfl <;> decide

theorem lex_restOfLiteral {v : Json} {rest : List Char} (boundary : AtBoundary rest) :
    ∀ (cs : List Char) {read : List Char}, (∀ c ∈ cs, isLiteralChar c) →
    literal? (read.reverse ++ cs) = some v →
    tokensFrom? (.literal read) (cs ++ rest) = (tokensFrom? .between rest).map (.literal v :: ·)
  | [], read, _, h => by
    rw [List.append_nil] at h
    cases rest with
    | nil => simp [tokensFrom?, h]
    | cons d rest =>
      have ends := not_isLiteralChar_of_boundary boundary
      rw [List.nil_append, tokensFrom?_cons, tokensFrom?_cons]
      rcases between : lexBetween d with _ | ⟨ts, next⟩ <;> simp [lexStep, ends, h, between]
      rfl
  | c :: cs, read, all, h => by
    have collects : lexStep (.literal read) c = some ([], .literal (c :: read)) :=
      if_pos (all c List.mem_cons_self)
    rw [List.cons_append, lex_silent _ collects]
    exact lex_restOfLiteral boundary cs (fun d hd => all d (List.mem_cons_of_mem _ hd))
      (by simpa using h)

theorem lex_literal {v : Json} {c : Char} {cs rest : List Char} (boundary : AtBoundary rest)
    (literal : (c :: cs).all isLiteralChar) (h : literal? (c :: cs) = some v) :
    tokensFrom? .between (c :: cs ++ rest) = (tokensFrom? .between rest).map (.literal v :: ·) := by
  have all := List.all_eq_true.1 literal
  have hc : isLiteralChar c = true := all c List.mem_cons_self
  have begins : lexStep .between c = some ([], .literal [c]) := by
    simp [lexStep, lexBetween, not_isBlank_of_isLiteralChar hc, hc]
  rw [List.cons_append, lex_silent _ begins]
  exact lex_restOfLiteral boundary cs (fun d hd => all d (List.mem_cons_of_mem _ hd)) h

end Json

/-! ### Integers -/

namespace Layout

theorem isDigit_of_mem_digitsOf {n : Nat} {c : Char} (h : c ∈ digitsOf n) : isDigit c := by
  have digit : c.isDigit = true := Nat.isDigit_of_mem_toDigits (by decide) (by decide) h
  simpa [isDigit, Char.isDigit, Char.le_def, UInt32.le_iff_toNat_le] using digit

theorem digitsValue_digitsOf (n : Nat) : digitsValue (digitsOf n) = n := by
  rw [digitsValue, ← Nat.ofDigitChars_eq_foldl]
  exact Nat.ofDigitChars_ten_toDigits

theorem head?_digitsOf_ne_zero {n : Nat} (positive : 0 < n) : (digitsOf n).head? ≠ some '0' := by
  induction n using Nat.strongRecOn with
  | _ n ih =>
    by_cases small : n < 10
    · rw [digitsOf, Nat.toDigits_of_lt_base small]
      have : ∀ m < 10, 0 < m → [Nat.digitChar m].head? ≠ some '0' := by decide
      exact this n small positive
    · have tens : 0 < n / 10 := by omega
      rw [digitsOf, Nat.toDigits_of_base_le (by decide) (by omega), ← digitsOf, List.head?_append,
        Option.or_of_isSome (by simpa using digitsOf_ne_nil _)]
      exact ih (n / 10) (by omega) tens

/-- A zero in front stands alone. -/
theorem length_digitsOf_of_head? {n : Nat} (h : (digitsOf n).head? = some '0') :
    (digitsOf n).length ≤ 1 := by
  rcases Nat.eq_zero_or_pos n with rfl | positive
  · decide
  · exact absurd h (head?_digitsOf_ne_zero positive)

end Layout

namespace Json

open Layout

theorem numberParts?_digitsOf (n : Nat) (negative : Bool) :
    numberParts? ((if negative then ['-'] else []) ++ digitsOf n) =
      some ⟨negative, digitsOf n, none, none⟩ := by
  have digits : ∀ c ∈ digitsOf n, isDigit c := fun _ => isDigit_of_mem_digitsOf
  have whole : (digitsOf n ++ []).takeWhile isDigit = digitsOf n ++ [].takeWhile isDigit :=
    List.takeWhile_append_of_pos digits
  have rest : (digitsOf n ++ []).dropWhile isDigit = [].dropWhile isDigit :=
    List.dropWhile_append_of_pos digits
  rw [List.append_nil] at whole rest
  have leading : (digitsOf n).head? = some '0' → (digitsOf n).length ≤ 1 :=
    length_digitsOf_of_head?
  cases negative with
  | true => simpa [numberParts?, whole, rest, digitsOf_ne_nil, exponent?] using leading
  | false =>
    have unsigned : ∀ r, digitsOf n ≠ '-' :: r := fun r h =>
      absurd (digits '-' (h ▸ List.mem_cons_self)) (by decide)
    unfold numberParts?
    simpa [whole, rest, digitsOf_ne_nil, exponent?, unsigned] using leading

theorem numberOf?_digitsOf {n : Nat} (negative : Bool)
    (word : IsWord (if negative then -(n : Int) else n)) (signed : negative → 0 < n) :
    numberOf? ⟨negative, digitsOf n, none, none⟩ =
      some (.integer (if negative then -(n : Int) else n)) := by
  unfold IsWord at word
  cases negative with
  | true =>
    have positive := signed rfl
    have low : n ≤ 0x8000000000000000 := by simp at word; omega
    simp [numberOf?, digitsValue_digitsOf, positive, low]
  | false =>
    have high : n < 0x10000000000000000 := by simp at word; omega
    simp [numberOf?, digitsValue_digitsOf, high]

/-- A literal that is no word is read as a number. -/
theorem literal?_eq_number {cs : List Char} {p : NumberParts} {n : Number}
    (parts : numberParts? cs = some p) (number : numberOf? p = some n) :
    literal? cs = some (.number n) := by
  unfold literal?
  split
  · cases parts.symm.trans (rfl : _ = none)
  · cases parts.symm.trans (rfl : _ = none)
  · cases parts.symm.trans (rfl : _ = none)
  · simp [parts, number]

theorem literal?_integerText {n : Int} (word : IsWord n) :
    literal? (integerText n) = some (.number (.integer n)) := by
  have value : (if decide (n < 0) then -(n.natAbs : Int) else n.natAbs) = n := by
    by_cases negative : n < 0
    · rw [decide_eq_true negative, if_pos rfl]
      omega
    · rw [decide_eq_false negative, if_neg Bool.false_ne_true]
      omega
  have text : integerText n = (if decide (n < 0) then ['-'] else []) ++ digitsOf n.natAbs := by
    unfold integerText
    by_cases negative : n < 0
    · rw [decide_eq_true negative, if_pos negative, if_pos rfl]
      rfl
    · rw [decide_eq_false negative, if_neg negative, if_neg Bool.false_ne_true]
      rfl
  have number := numberOf?_digitsOf (n := n.natAbs) (decide (n < 0)) (by rwa [value])
    (fun negative => by have := of_decide_eq_true negative; omega)
  rw [value] at number
  rw [text]
  exact literal?_eq_number (numberParts?_digitsOf _ _) number

theorem isLiteralChar_of_mem_integerText {n : Int} {c : Char} (h : c ∈ integerText n) :
    isLiteralChar c := by
  have digit : ∀ {m : Nat}, c ∈ digitsOf m → isLiteralChar c := fun hc => by
    simp [isLiteralChar, isDigit_of_mem_digitsOf hc]
  unfold integerText at h
  split at h
  · rcases List.mem_cons.1 h with rfl | h
    · decide
    · exact digit h
  · exact digit h

/-! ### Strings -/

theorem hexValue?_hexDigit (n : Nat) : hexValue? (hexDigit n) = some (n % 16) := by
  have digits : ∀ m < 16, hexValue? (Nat.digitChar m) = some m := by decide
  exact digits _ (Nat.mod_lt _ (by decide))

/-- An escaped character is collected as itself. -/
theorem lex_escapeChar (c : Char) (read rest : List Char) :
    tokensFrom? (.string read none) (escapeChar c ++ rest) =
      tokensFrom? (.string (c :: read) none) rest := by
  rcases escapeChar_cases c with ⟨hc, quote, slash⟩ | ⟨k, hc, hk⟩ | ⟨hc, control⟩
  · have printable : ¬ c.toNat < 32 := by
      have longer : ∀ n < 32, (escapeChar (Char.ofNat n)).length ≠ 1 := by decide
      intro control
      exact longer _ control (by rw [Char.ofNat_toNat, hc]; rfl)
    rw [hc]
    exact lex_silent _ (by simp [lexStep, quote, slash, printable]) rest
  · have unicode : k ≠ 'u' := by
      rintro rfl
      exact absurd hk (by simp [shortEscape?])
    rw [hc, List.cons_append, lex_silent (.escape read none) rfl]
    exact lex_silent _ (by simp [lexStep, unicode, hk]) rest
  · have value : 16 * (c.toNat / 16 % 16) + c.toNat % 16 = c.toNat := by omega
    have plain : isHighSurrogate c.toNat = false ∧ isLowSurrogate c.toNat = false := by
      simp [isHighSurrogate, isLowSurrogate]; omega
    rw [hc]
    simp only [List.cons_append, List.nil_append]
    rw [lex_silent (.escape read none) rfl, lex_silent (.unicode read none 0 0) rfl,
      lex_silent (.unicode read none 1 0) rfl, lex_silent (.unicode read none 2 0) rfl,
      lex_silent (.unicode read none 3 (c.toNat / 16 % 16))
        (by simp [lexStep, hexValue?_hexDigit])]
    exact lex_silent _ (by simp [lexStep, hexValue?_hexDigit, value, unicodeEscape?, plain]) rest

theorem lex_restOfString (rest : List Char) : ∀ (cs read : List Char),
    tokensFrom? (.string read none) (cs.flatMap escapeChar ++ '"' :: rest) =
      (tokensFrom? .between rest).map (.text (String.ofList (read.reverse ++ cs)) :: ·)
  | [], read => by
    rw [List.flatMap_nil, List.nil_append, List.append_nil, tokensFrom?_cons]
    rfl
  | c :: cs, read => by
    rw [List.flatMap_cons, List.append_assoc, lex_escapeChar, lex_restOfString rest cs (c :: read)]
    simp

theorem lex_quote (s : String) (rest : List Char) :
    tokensFrom? .between (quote s ++ rest) = (tokensFrom? .between rest).map (.text s :: ·) := by
  have opens : lexStep .between '"' = some ([], .string [] none) := rfl
  rw [quote, List.cons_append, List.cons_append, lex_silent _ opens, List.append_assoc]
  simpa using lex_restOfString rest s.toList []

/-! ### Values -/

theorem lex_number {n : Int} (word : IsWord n) {rest : List Char} (boundary : AtBoundary rest) :
    tokensFrom? .between (integerText n ++ rest) =
      (tokensFrom? .between rest).map (.literal (.number (.integer n)) :: ·) := by
  have value := literal?_integerText word
  have all : ∀ c ∈ integerText n, isLiteralChar c := fun _ => isLiteralChar_of_mem_integerText
  cases text : integerText n with
  | nil => exact absurd text (integerText_ne_nil n)
  | cons c cs =>
    rw [text] at value all
    exact lex_literal boundary (List.all_eq_true.2 all) value

mutual

/-- **The text of a value is cut into its tokens**, whatever follows a value. -/
theorem lex_write : ∀ (j : Json) {rest : List Char}, j.Exact → AtBoundary rest →
    tokensFrom? .between (j.write ++ rest) = (tokensFrom? .between rest).map (j.tokens ++ ·)
  | .null, rest, _, boundary => by
    rw [write, tokens]
    exact lex_literal boundary rfl rfl
  | .bool true, rest, _, boundary => by
    rw [write, tokens]
    exact lex_literal boundary rfl rfl
  | .bool false, rest, _, boundary => by
    rw [write, tokens]
    exact lex_literal boundary rfl rfl
  | .number (.integer n), rest, exact, boundary => by
    rw [write, tokens]
    rw [Exact] at exact
    exact lex_number exact boundary
  | .number (.double _), _, exact, _ => by
    rw [Exact] at exact
    exact exact.elim
  | .number (.single _), _, exact, _ => by
    rw [Exact] at exact
    exact exact.elim
  | .string s, rest, _, _ => by
    rw [write, tokens]
    exact lex_quote s rest
  | .array [], rest, _, _ => by
    rw [write, writeItems, tokens]
    simp only [List.nil_append, List.cons_append]
    rw [lex_mark (t := .openBracket) rfl, lex_mark (t := .closeBracket) rfl]
    simp [Function.comp_def]
  | .array (j :: items), rest, exact, _ => by
    rw [Exact, ExactItems] at exact
    rw [write, writeItems_cons, tokens]
    simp only [List.append_assoc, List.cons_append, List.nil_append]
    rw [lex_mark (t := .openBracket) rfl, lex_write j exact.1 (atBoundary_itemsTail items rest),
      lex_itemsTail items exact.2, lex_mark (t := .closeBracket) rfl]
    simp [Function.comp_def]
  | .object [], rest, _, _ => by
    rw [write, writeMembers, tokens]
    simp only [List.nil_append, List.cons_append]
    rw [lex_mark (t := .openBrace) rfl, lex_mark (t := .closeBrace) rfl]
    simp [Function.comp_def]
  | .object ((name, j) :: members), rest, exact, _ => by
    rw [Exact, ExactMembers] at exact
    rw [write, writeMembers_cons, tokens]
    simp only [List.append_assoc, List.cons_append, List.nil_append]
    rw [lex_mark (t := .openBrace) rfl, lex_quote, lex_mark (t := .colon) rfl,
      lex_write j exact.1 (atBoundary_membersTail members rest),
      lex_membersTail members exact.2, lex_mark (t := .closeBrace) rfl]
    simp [Function.comp_def]

theorem lex_itemsTail : ∀ (items : List Json) {rest : List Char}, ExactItems items →
    tokensFrom? .between (itemsTail items ++ ']' :: rest) =
      (tokensFrom? .between (']' :: rest)).map (moreItems items ++ ·)
  | [], rest, _ => by
    rw [itemsTail, moreItems]
    simp
  | j :: items, rest, exact => by
    rw [ExactItems] at exact
    rw [itemsTail, writeItems_cons, moreItems, List.cons_append, List.append_assoc,
      lex_mark (t := .comma) rfl, lex_write j exact.1 (atBoundary_itemsTail items rest),
      lex_itemsTail items exact.2]
    · simp [Function.comp_def]
    · exact List.cons_ne_nil _ _

theorem lex_membersTail : ∀ (members : List (String × Json)) {rest : List Char},
    ExactMembers members →
    tokensFrom? .between (membersTail members ++ '}' :: rest) =
      (tokensFrom? .between ('}' :: rest)).map (moreMembers members ++ ·)
  | [], rest, _ => by
    rw [membersTail, moreMembers]
    simp
  | (name, j) :: members, rest, exact => by
    rw [ExactMembers] at exact
    rw [membersTail, writeMembers_cons, moreMembers]
    · simp only [List.append_assoc, List.cons_append]
      rw [lex_mark (t := .comma) rfl, lex_quote, lex_mark (t := .colon) rfl,
        lex_write j exact.1 (atBoundary_membersTail members rest), lex_membersTail members exact.2]
      simp [Function.comp_def]
    · exact List.cons_ne_nil _ _

end

/-! ## 3. The reader -/

namespace Reader

theorem foldlM_cons {r : Reader} {t : Token} (next : Reader) (h : r.step t = some next)
    (ts : List Token) :
    (t :: ts).foldlM step r = ts.foldlM step next := by
  rw [List.foldlM_cons, h]
  rfl

theorem step_openBracket {frames : List Frame} (room : frames.length < depthLimit) :
    step ⟨frames, .value⟩ .openBracket = some ⟨.array [] :: frames, .firstItem⟩ :=
  if_pos room

theorem step_openBrace {frames : List Frame} (room : frames.length < depthLimit) :
    step ⟨frames, .value⟩ .openBrace = some ⟨frames, .firstName⟩ :=
  if_pos room

/-- The first item of an array is read like any other value. -/
theorem foldlM_firstItem (j : Json) (frames : List Frame) (ts : List Token) :
    (j.tokens ++ ts).foldlM step ⟨frames, .firstItem⟩ =
      (j.tokens ++ ts).foldlM step ⟨frames, .value⟩ := by
  have begins : ∀ t us, t ≠ .closeBracket → (t :: us).foldlM step ⟨frames, .firstItem⟩ =
      (t :: us).foldlM step ⟨frames, .value⟩ := by
    intro t us open_
    rw [List.foldlM_cons, List.foldlM_cons]
    cases t <;> first | exact absurd rfl open_ | rfl
  rcases j with _ | _ | _ | _ | (_ | ⟨j, items⟩) | (_ | ⟨⟨name, j⟩, members⟩) <;>
    rw [Json.tokens] <;> exact begins _ _ Token.noConfusion

end Reader

open Reader

mutual

/-- **The tokens of a value deliver it**, if the stack has room for it. -/
theorem read_tokens : ∀ (j : Json) {frames : List Frame} (ts : List Token),
    frames.length + j.depth ≤ depthLimit →
    (j.tokens ++ ts).foldlM step ⟨frames, .value⟩ = ts.foldlM step (deliver frames j)
  | .null, frames, ts, _ => by
    rw [tokens]
    exact foldlM_cons _ rfl ts
  | .bool _, frames, ts, _ => by
    rw [tokens]
    exact foldlM_cons _ rfl ts
  | .number _, frames, ts, _ => by
    rw [tokens]
    exact foldlM_cons _ rfl ts
  | .string s, frames, ts, _ => by
    rw [tokens]
    exact foldlM_cons _ rfl ts
  | .array [], frames, ts, room => by
    rw [depth] at room
    simp only [tokens, List.cons_append, List.nil_append]
    rw [foldlM_cons _ (step_openBracket (by omega))]
    exact foldlM_cons _ rfl ts
  | .array (j :: items), frames, ts, room => by
    rw [depth, depthOfItems] at room
    simp only [tokens, List.cons_append, List.append_assoc, List.nil_append]
    rw [foldlM_cons _ (step_openBracket (by omega)), foldlM_firstItem,
      read_tokens j _ (by rw [List.length_cons]; omega)]
    exact read_moreItems items [j] (by omega)
  | .object [], frames, ts, room => by
    rw [depth] at room
    simp only [tokens, List.cons_append, List.nil_append]
    rw [foldlM_cons _ (step_openBrace (by omega))]
    exact foldlM_cons _ rfl ts
  | .object ((name, j) :: members), frames, ts, room => by
    rw [depth, depthOfMembers] at room
    simp only [tokens, List.cons_append, List.append_assoc, List.nil_append]
    rw [foldlM_cons _ (step_openBrace (by omega)),
      foldlM_cons ⟨frames, .colon [] name⟩ rfl,
      foldlM_cons ⟨.object [] name :: frames, .value⟩ rfl,
      read_tokens j _ (by rw [List.length_cons]; omega)]
    exact read_moreMembers members [(name, j)] (by omega)

/-- The further items of an array, up to its closing bracket. -/
theorem read_moreItems : ∀ (items done : List Json) {frames : List Frame} {ts : List Token},
    frames.length + 1 + depthOfItems items ≤ depthLimit →
    (moreItems items ++ .closeBracket :: ts).foldlM step ⟨.array done :: frames, .separator⟩ =
      ts.foldlM step (deliver frames (.array (done.reverse ++ items)))
  | [], done, frames, ts, _ => by
    rw [moreItems, List.append_nil]
    exact foldlM_cons _ rfl ts
  | j :: items, done, frames, ts, room => by
    rw [depthOfItems] at room
    rw [moreItems, List.cons_append,
      foldlM_cons ⟨.array done :: frames, .value⟩ rfl, List.append_assoc,
      read_tokens j _ (by rw [List.length_cons]; omega)]
    simpa [deliver] using read_moreItems items (j :: done) (by omega)

theorem read_moreMembers : ∀ (members done : List (String × Json)) {name : String}
    {frames : List Frame} {ts : List Token},
    frames.length + 1 + depthOfMembers members ≤ depthLimit →
    (moreMembers members ++ .closeBrace :: ts).foldlM step
        ⟨.object done name :: frames, .separator⟩ =
      ts.foldlM step (deliver frames (.object (done.reverse ++ members)))
  | [], done, name, frames, ts, _ => by
    rw [moreMembers, List.append_nil]
    exact foldlM_cons _ rfl ts
  | (next, j) :: members, done, name, frames, ts, room => by
    rw [depthOfMembers] at room
    simp only [moreMembers, List.cons_append, List.append_assoc]
    rw [foldlM_cons ⟨frames, .name done⟩ rfl,
      foldlM_cons ⟨frames, .colon done next⟩ rfl,
      foldlM_cons ⟨.object done next :: frames, .value⟩ rfl,
      read_tokens j _ (by rw [List.length_cons]; omega)]
    simpa [deliver] using read_moreMembers members ((next, j) :: done) (by omega)

end

/-- **The text of a value is read back as the value.** -/
theorem parse_text {j : Json} (exact : j.Exact) (shallow : j.depth ≤ depthLimit) :
    parse? j.text = some j := by
  have lexed : tokensFrom? .between j.write = some j.tokens := by
    have h : tokensFrom? .between (j.write ++ []) = _ := lex_write j exact atBoundary_end
    rw [List.append_nil] at h
    simpa [tokensFrom?] using h
  have read : j.tokens.foldlM step start = some (deliver [] j) := by
    have h : (j.tokens ++ []).foldlM step ⟨[], .value⟩ = _ :=
      read_tokens j [] (by simpa using shallow)
    rwa [List.append_nil] at h
  rw [parse?, text, String.toList_ofList, lexed]
  simp only [Option.bind_eq_bind, Option.bind_some, read]
  rfl

end Json

end DocQuery
