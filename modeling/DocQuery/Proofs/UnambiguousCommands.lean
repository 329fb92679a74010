/-
# What the text of a select determines

A command is a text with parameters, and the store executes the select that it was written from.
So one may ask whether the text says what is executed: whether two selects of one text have one
outcome.  They have, if their expressions are written plainly and clearly and, where rows are
ranked, the parts of the ranking that no text has are the same (`command_determines_result`).

The text is taken apart from left to right.  Expressions end where they end (`Expr.determines`);
what is left is to tell the keywords from the expressions that could stand in their place.

* **`DISTINCT` and `VALUE`** stand where a first column could: a column with its name does not
  begin with a word and a blank before such a rest (`named_ne_word`).
* **`RANK`** stands where an ordinary ordering could, and a ranking is the call of a function, so
  a column has to be told from a call (`ranking_ne_orderings`).
* **The page and the predicate** begin with words of their own, which are not taken for orderings
  (`SelectOf.spellPage_ne_order`, `SelectOf.spellOrderings_ne_where`).

So the bare select is determined (`SelectOf.bare_eq_of_spell`), and a bare select is run with the
outcome of the select.  The two selects may differ in types, in the width of integers and in the
place of a minus.

**Where it fails.**  `commands_collide` has selects of one text with different outcomes: a test
for null and a comparison with null, a ranking in either direction or with other ties, a fusion
and a function of its name, a membership in nothing, a lost minus.  Each is excluded by one
hypothesis.
-/
import DocQuery.Proofs.CommandText

namespace DocQuery

/-! ## 1. Words in front of expressions -/

theorem Opening.ofRest_blank (t : List Char) :
    ofRest (' ' :: t) = .negation ∨ ofRest (' ' :: t) = .name := by
  unfold ofRest
  split
  · next h => exact nomatch h
  · exact .inl rfl
  · exact .inr rfl

namespace Expr

variable {e : Expr} {r t : List Char}

/-- An expression begins with a word and a blank only if it is that word: then a membership follows
or the expression is at its end. -/
theorem of_word (legible : e.Legible) (hr : Ends r) {w : String} (hw : isIdentifier w)
    (other : w ≠ "NOT") (text : e.spell r = w.toList ++ ' ' :: t) :
    (∃ u, t = 'I' :: 'N' :: ' ' :: '(' :: u) ∨ r = ' ' :: t := by
  have stops : Stops isWordChar (' ' :: t) := stops_cons (by decide) t
  rw [spell_head] at text
  have pauses := pauses_spellMemberships e.memberships hr
  have opening := opening_spell e.head legible.head pauses
  rw [text, Opening.ofText_word hw stops] at opening
  have kind := head_opening legible.head e.isHead_head
  rw [← opening] at kind
  rcases Opening.ofRest_blank t with negation | name
  · rw [negation] at kind
    generalize e.head = head at kind text
    cases kind with
    | negation operand mapping =>
      rw [spell] at text
      change "NOT".toList ++ ' ' :: _ = _ at text
      obtain ⟨words, -⟩ := word_append_inj rfl hw (stops_cons (by decide) _) stops text
      exact absurd words.symm other
  · rw [name] at kind
    generalize e.head = head at kind text
    cases kind with
    | word path identifier spelled bare =>
      rw [spelled] at text
      obtain ⟨-, behind⟩ := word_append_inj identifier hw (stops_spellPath path pauses).1 stops text
      cases path with
      | cons name path => exact nomatch behind
      | nil =>
        rw [spellPath] at behind
        cases hms : e.memberships with
        | nil =>
          rw [hms, spellMemberships] at behind
          exact .inr behind
        | cons values ts =>
          rw [hms, spellMemberships] at behind
          exact .inl ⟨_, (List.cons.inj behind).2.symm⟩

theorem spell_ne_membership (legible : e.Legible) (hr : Ends r) (u : List Char) :
    e.spell r ≠ 'I' :: 'N' :: ' ' :: '(' :: u := by
  intro text
  have text' : e.spell r = "IN".toList ++ ' ' :: '(' :: u := text
  rcases of_word legible hr rfl (by decide) text' with ⟨u', h⟩ | rfl
  · exact nomatch h
  · cases hr with
    | blank bracket => exact bracket rfl

end Expr

/-! ## 2. Columns -/

/-- What stands behind a column with its name: the next one or the source. -/
inductive ColumnEnd : List Char → Prop where
  | comma (rest : List Char) : ColumnEnd (',' :: rest)
  | source (rest : List Char) : ColumnEnd (" FROM root ".toList ++ rest)

/-- What stands behind the expression of a column: its name or, if it is the only one, the source. -/
inductive ColumnRest : List Char → Prop where
  | name {name : String} (identifier : isIdentifier name) {rest : List Char}
      (behind : ColumnEnd rest) : ColumnRest (" AS ".toList ++ (name.toList ++ rest))
  | source (rest : List Char) : ColumnRest (" FROM root ".toList ++ rest)

theorem ColumnEnd.stops {r : List Char} : ColumnEnd r → Stops isWordChar r
  | .comma rest => stops_cons (by decide) rest
  | .source _ => stops_cons (by decide) _

/-- Behind a name that a blank follows stands the source. -/
theorem ColumnEnd.of_word {r t : List Char} (h : ColumnEnd r) {w name : String} (hw : isIdentifier w)
    (hname : isIdentifier name) (text : w.toList ++ ' ' :: t = name.toList ++ r) :
    ∃ u, t = "FROM root ".toList ++ u := by
  obtain ⟨-, behind⟩ := Expr.word_append_inj hw hname (stops_cons (by decide) t) h.stops text
  cases h with
  | comma rest => exact nomatch behind
  | source u => exact ⟨u, (List.cons.inj behind).2⟩

theorem ColumnRest.ends {r : List Char} (h : ColumnRest r) : Ends r := by
  cases h with
  | name => exact .blank (by decide) (by decide) _
  | source => exact .blank (by decide) (by decide) _

section

variable {e : Expr} {name : String} {r rest t : List Char}

/-- The text of a column does not begin with the name of another. -/
theorem spell_ne_name (legible : e.Legible) (hr : ColumnRest r) (identifier : isIdentifier name)
    (behind : ColumnEnd rest) : e.spell r ≠ "AS ".toList ++ (name.toList ++ rest) := by
  intro text
  have text : e.spell r = "AS".toList ++ ' ' :: (name.toList ++ rest) := text
  rcases Expr.of_word legible hr.ends rfl (by decide) text with ⟨u, membership⟩ | ended
  · have words : "IN".toList ++ ' ' :: '(' :: u = name.toList ++ rest := membership.symm
    obtain ⟨_, h⟩ := behind.of_word rfl identifier words
    exact nomatch h
  · cases hr with
    | @name name' identifier' rest' behind' =>
      have words : "AS".toList ++ ' ' :: (name'.toList ++ rest') = name.toList ++ rest :=
        (List.cons.inj ended).2
      obtain ⟨u, h⟩ := behind.of_word rfl identifier words
      have words' : "FROM".toList ++ ' ' :: ("root ".toList ++ u) = name'.toList ++ rest' := h.symm
      obtain ⟨_, h⟩ := behind'.of_word rfl identifier' words'
      exact nomatch h
    | source u =>
      have words : "FROM".toList ++ ' ' :: ("root ".toList ++ u) = name.toList ++ rest :=
        (List.cons.inj ended).2
      obtain ⟨_, h⟩ := behind.of_word rfl identifier words
      exact nomatch h

/-- A text that does not continue a word: no membership and no name of a column. -/
structure Fresh (t : List Char) : Prop where
  membership : ∀ u, t ≠ 'I' :: 'N' :: ' ' :: '(' :: u
  name : ∀ name, isIdentifier name → ∀ rest, ColumnEnd rest →
    t ≠ "AS ".toList ++ (name.toList ++ rest)

theorem fresh_spell (legible : e.Legible) (hr : ColumnRest r) : Fresh (e.spell r) where
  membership := Expr.spell_ne_membership legible hr.ends
  name _ identifier _ behind := spell_ne_name legible hr identifier behind

/-- A column with its name does not begin with a word before such a text. -/
theorem named_ne_word (legible : e.Legible) (identifier : isIdentifier name) (behind : ColumnEnd rest)
    {w : String} (hw : isIdentifier w) (other : w ≠ "NOT") (fresh : Fresh t) :
    spellColumn (e, name) rest ≠ w.toList ++ ' ' :: t := by
  intro text
  rcases Expr.of_word legible (ColumnRest.name identifier behind).ends hw other text with
    ⟨u, membership⟩ | ended
  · exact fresh.membership u membership
  · exact fresh.name name identifier rest behind (List.cons.inj ended).2.symm

end

/-! ## 3. The columns -/

/-- The columns without what execution does not read; an only one has no name. -/
def bareColumns (columns : List (Expr × String)) : List (Expr × String) :=
  columns.map fun c => (c.1.bare, if columns.length = 1 then "" else c.2)

section

variable {columns columns' : List (Expr × String)}
  (legible : ∀ c ∈ columns, c.1.Legible ∧ isIdentifier c.2)
  (legible' : ∀ c ∈ columns', c.1.Legible ∧ isIdentifier c.2)

theorem spellColumn_inj {c c' : Expr × String} {r r' : List Char}
    (hc : c.1.Legible ∧ isIdentifier c.2) (hc' : c'.1.Legible ∧ isIdentifier c'.2)
    (hr : ColumnEnd r) (hr' : ColumnEnd r') (h : spellColumn c r = spellColumn c' r') :
    (c.1.bare, c.2) = (c'.1.bare, c'.2) ∧ r = r' := by
  obtain ⟨bare, behind⟩ := c.1.determines hc.1 hc'.1 (ColumnRest.name hc.2 hr).ends
    (ColumnRest.name hc'.2 hr').ends h
  obtain ⟨name, rest⟩ := Expr.word_append_inj hc.2 hc'.2 hr.stops hr'.stops
    (List.append_cancel_left behind)
  exact ⟨Prod.ext bare name, rest⟩

theorem columnEnd_spellOthers (columns : List (Expr × String)) (u : List Char) :
    ColumnEnd (spellOthers spellColumn columns (" FROM root ".toList ++ u)) :=
  behind_spellOthers .comma (.source u) columns

include legible in
theorem fresh_spellColumns (hne : columns ≠ []) (u : List Char) :
    Fresh (spellColumns columns (" FROM root ".toList ++ u)) := by
  rcases columns with _ | ⟨⟨e, name⟩, _ | ⟨second, others⟩⟩
  · exact absurd rfl hne
  · exact ⟨fun _ h => (nomatch h), fun _ _ _ _ h => (nomatch h)⟩
  · have first := legible _ List.mem_cons_self
    exact fresh_spell first.1 (.name first.2 (columnEnd_spellOthers (second :: others) u))

include legible in
/-- Columns do not begin with a word other than the `VALUE` of an only one. -/
theorem spellColumns_ne_word {w : String} (hw : isIdentifier w) (other : w ≠ "NOT")
    (several : columns.length ≠ 1) (hne : columns ≠ []) {t : List Char} (fresh : Fresh t)
    (u : List Char) :
    spellColumns columns (" FROM root ".toList ++ u) ≠ w.toList ++ ' ' :: t := by
  rcases columns with _ | ⟨⟨e, name⟩, _ | ⟨second, others⟩⟩
  · exact absurd rfl hne
  · exact absurd rfl several
  · have first := legible _ List.mem_cons_self
    exact named_ne_word first.1 first.2 (columnEnd_spellOthers (second :: others) u) hw other fresh

include legible in
theorem spellColumns_ne_distinct (hne : columns ≠ []) {t : List Char} (fresh : Fresh t)
    (u : List Char) :
    spellColumns columns (" FROM root ".toList ++ u) ≠ "DISTINCT ".toList ++ t := by
  by_cases several : columns.length = 1
  · obtain ⟨c, rfl⟩ := List.length_eq_one_iff.1 several
    exact fun h => nomatch h
  · exact spellColumns_ne_word legible (w := "DISTINCT") rfl (by decide) several hne fresh u

include legible legible' in
theorem spellColumns_inj (hne : columns ≠ []) (hne' : columns' ≠ []) {u u' : List Char}
    (h : spellColumns columns (" FROM root ".toList ++ u) =
      spellColumns columns' (" FROM root ".toList ++ u')) :
    bareColumns columns = bareColumns columns' ∧ u = u' := by
  have value : ∀ {c : Expr × String}, c.1.Legible → ∀ v, Fresh (c.1.spell (" FROM root ".toList ++ v)) :=
    fun hc v => fresh_spell hc (.source v)
  rcases columns with _ | ⟨c, _ | ⟨second, others⟩⟩
  · exact absurd rfl hne
  · by_cases several : columns'.length = 1
    · obtain ⟨c', rfl⟩ := List.length_eq_one_iff.1 several
      obtain ⟨bare, behind⟩ := c.1.determines (legible c List.mem_cons_self).1
        (legible' c' List.mem_cons_self).1 (ColumnRest.source u).ends (ColumnRest.source u').ends
        (List.append_cancel_left h)
      exact ⟨by simp [bareColumns, bare], List.append_cancel_left behind⟩
    · exact absurd h.symm (spellColumns_ne_word legible' (w := "VALUE") rfl (by decide) several hne'
        (value (legible c List.mem_cons_self).1 u) u')
  · by_cases several : columns'.length = 1
    · obtain ⟨c', rfl⟩ := List.length_eq_one_iff.1 several
      exact absurd h (spellColumns_ne_word legible (w := "VALUE") rfl (by decide) (by simp) hne
        (value (legible' c' List.mem_cons_self).1 u') u)
    · obtain ⟨d, ds, rfl⟩ := List.exists_cons_of_ne_nil hne'
      obtain ⟨d', ds, rfl⟩ := List.exists_cons_of_ne_nil (l := ds) (fun h => several (by rw [h]; rfl))
      have noComma : ∀ v, (" FROM root ".toList ++ v).head? ≠ some ',' := fun _ h => nomatch h
      obtain ⟨keys, behind⟩ := spellList_inj .comma spellColumn_inj hne hne' legible legible'
        (.source u) (.source u') (noComma u) (noComma u') h
      exact ⟨by simpa [bareColumns] using keys, List.append_cancel_left behind⟩

end

/-! ## 4. The page -/

namespace SelectOf

variable {s s' : Select}

theorem ends_spellLimit (s : Select) : Ends s.spellLimit := by
  unfold spellLimit
  split
  · exact .nil
  · exact .blank (by decide) (by decide) _

theorem spellLimit_inj (legible : s.IsLegible) (legible' : s'.IsLegible)
    (h : s.spellLimit = s'.spellLimit) : s.limit.map Expr.bare = s'.limit.map Expr.bare := by
  have limit := legible.limit
  have limit' := legible'.limit
  unfold spellLimit at h
  cases hs : s.limit with
  | none => cases hs' : s'.limit with
    | none => rfl
    | some e' =>
      rw [hs, hs'] at h
      exact nomatch h
  | some e => cases hs' : s'.limit with
    | none =>
      rw [hs, hs'] at h
      exact nomatch h
    | some e' =>
      rw [hs, hs'] at h
      have bare := (e.determines (limit e hs) (limit' e' hs') .nil .nil (List.append_cancel_left h)).1
      exact congrArg some bare

theorem spellPage_cases (s : Select) :
    (s.spellPage = [] ∧ s.pageOffset = none) ∨
      ∃ e ∈ s.pageOffset, s.spellPage = " OFFSET ".toList ++ e.spell s.spellLimit := by
  unfold spellPage
  cases s.pageOffset with
  | none => exact .inl ⟨rfl, rfl⟩
  | some e => exact .inr ⟨e, rfl, rfl⟩

theorem ends_spellPage (s : Select) : Ends s.spellPage := by
  obtain ⟨h, -⟩ | ⟨e, -, h⟩ := s.spellPage_cases
  · rw [h]
    exact .nil
  · rw [h]
    exact .blank (by decide) (by decide) _

/-- Without an offset there is no limit. -/
theorem limit_eq_none (h : s.pageOffset = none) : s.limit = none := by
  unfold pageOffset at h
  cases hlimit : s.limit with
  | none => rfl
  | some e =>
    cases hoffset : s.offset <;> rw [hlimit, hoffset] at h <;> exact nomatch h

theorem spellPage_inj (legible : s.IsLegible) (legible' : s'.IsLegible)
    (h : s.spellPage = s'.spellPage) : s.pageOffset.map Expr.bare = s'.pageOffset.map Expr.bare ∧
      s.limit.map Expr.bare = s'.limit.map Expr.bare := by
  obtain ⟨page, none⟩ | ⟨e, he, page⟩ := s.spellPage_cases <;>
    obtain ⟨page', none'⟩ | ⟨e', he', page'⟩ := s'.spellPage_cases <;> rw [page, page'] at h
  · rw [none, none', limit_eq_none none, limit_eq_none none']
    exact ⟨rfl, rfl⟩
  · exact nomatch h
  · exact nomatch h
  · obtain ⟨bare, limits⟩ := e.determines (legible.offset e he) (legible'.offset e' he')
      s.ends_spellLimit s'.ends_spellLimit (List.append_cancel_left h)
    rw [he, he']
    exact ⟨congrArg some bare, spellLimit_inj legible legible' limits⟩

end SelectOf

/-! ## 5. The orderings -/

/-- What the text of a ranking leaves out: directions, and the orderings that do not rank. -/
def OrderingTerm.unwritten (o : OrderingTerm Expr) : Option Expr × Bool :=
  (if o.expr.isScoring then none else some o.expr.bare, o.ascending)

def SelectOf.unwritten (s : Select) : List (Option Expr × Bool) := s.orderings.map OrderingTerm.unwritten

theorem ends_direction (ascending : Bool) (rest : List Char) :
    Ends ((if ascending then " ASC" else " DESC").toList ++ rest) := by
  cases ascending <;> exact .blank (by decide) (by decide) _

theorem OrderingTerm.spell_inj {o o' : OrderingTerm Expr} {r r' : List Char} (ho : o.expr.Legible)
    (ho' : o'.expr.Legible) (h : o.spell r = o'.spell r') :
    OrderingTerm.bare false o = OrderingTerm.bare false o' ∧ r = r' := by
  obtain ⟨bare, behind⟩ := o.expr.determines ho ho' (ends_direction _ r) (ends_direction _ r') h
  have directions : o.ascending = o'.ascending ∧ r = r' := by
    cases ha : o.ascending <;> cases ha' : o'.ascending <;> rw [ha, ha'] at behind
    · exact ⟨rfl, List.append_cancel_left behind⟩
    · exact nomatch behind
    · exact nomatch behind
    · exact ⟨rfl, List.append_cancel_left behind⟩
  refine ⟨?_, directions.2⟩
  show OrderingTerm.mk o.expr.bare o.ascending = OrderingTerm.mk o'.expr.bare o'.ascending
  rw [bare, directions.1]

section

variable {scores scores' : List Expr} {r r' : List Char}

/-- A ranking is the call of a function, which may be the fusion. -/
theorem exists_call_spellRanking (legible : ∀ e ∈ scores, e.Legible)
    (functions : ∀ e ∈ scores, e.isScoring) (rest : List Char) :
    ∃ name u, isIdentifier name ∧ spellRanking scores rest = name.toList ++ '(' :: u := by
  rcases scores with _ | ⟨only, _ | ⟨second, others⟩⟩
  · exact ⟨"RRF", _, rfl, rfl⟩
  · have scoring := functions only List.mem_cons_self
    cases only with
    | function name args isScoring type mapping =>
      have call : (Expr.function name args isScoring type mapping).Legible :=
        legible _ List.mem_cons_self
      refine ⟨name, Expr.spellItems args (')' :: rest), call.1.1, ?_⟩
      rw [spellRanking, Expr.spell]
    | _ => cases scoring
  · exact ⟨"RRF", _, rfl, rfl⟩

theorem spellRanking_inj (length : scores.length = scores'.length) (legible : ∀ e ∈ scores, e.Legible)
    (legible' : ∀ e ∈ scores', e.Legible) (hr : Ends r) (hr' : Ends r')
    (h : spellRanking scores r = spellRanking scores' r') :
    scores.map Expr.bare = scores'.map Expr.bare ∧ r = r' := by
  by_cases several : scores.length = 1
  · obtain ⟨e, rfl⟩ := List.length_eq_one_iff.1 several
    obtain ⟨e', rfl⟩ := List.length_eq_one_iff.1 (length.symm.trans several)
    obtain ⟨bare, rest⟩ := e.determines (legible e List.mem_cons_self) (legible' e' List.mem_cons_self)
      hr hr' h
    exact ⟨by rw [List.map_singleton, List.map_singleton, bare], rest⟩
  · rw [spellRanking_several several, spellRanking_several (length ▸ several)] at h
    obtain ⟨bares, rest⟩ := Expr.spellItems_inj (fun e _ => e.determines)
      (Expr.everywhereList_iff.2 legible) (Expr.everywhereList_iff.2 legible')
      (List.append_cancel_left h)
    rw [← Expr.bareList_eq_map, ← Expr.bareList_eq_map]
    exact ⟨bares, rest⟩

/-- A ranking is no list of ordinary orderings. -/
theorem ranking_ne_orderings (legible : ∀ e ∈ scores, e.Legible)
    (functions : ∀ e ∈ scores, e.isScoring) {orderings : List (OrderingTerm Expr)}
    (hne : orderings ≠ []) (legible' : ∀ o ∈ orderings, o.expr.Legible) (rest : List Char)
    (hr' : Pauses r') : "RANK ".toList ++ spellRanking scores rest ≠
      spellList OrderingTerm.spell orderings r' := by
  intro text
  obtain ⟨o, os, rfl⟩ := List.exists_cons_of_ne_nil hne
  obtain ⟨name, u, identifier, call⟩ := exists_call_spellRanking legible functions rest
  have stops : ∀ t : List Char, Stops isWordChar ('(' :: t) := stops_cons (by decide)
  have pauses : Pauses (spellOthers OrderingTerm.spell os r') := behind_spellOthers .comma hr' os
  have words : o.spell (spellOthers OrderingTerm.spell os r') =
      "RANK".toList ++ ' ' :: (name.toList ++ '(' :: u) := by
    rw [← call]
    exact text.symm
  rcases Expr.of_word (legible' o List.mem_cons_self) (ends_direction _ _) rfl (by decide) words with
    ⟨v, membership⟩ | ended
  · have h : name.toList ++ '(' :: u = "IN".toList ++ ' ' :: '(' :: v := membership
    obtain ⟨-, behind⟩ := Expr.word_append_inj identifier rfl (stops _)
      (stops_cons (by decide) _) h
    exact nomatch behind
  · have direction : ∃ w, isIdentifier w ∧ (if o.ascending then " ASC" else " DESC").toList =
        ' ' :: w.toList := by
      cases o.ascending
      · exact ⟨"DESC", rfl, rfl⟩
      · exact ⟨"ASC", rfl, rfl⟩
    obtain ⟨w, hw, direction⟩ := direction
    rw [direction] at ended
    obtain ⟨-, behind⟩ := Expr.word_append_inj hw identifier pauses.stops_word (stops _)
      (List.cons.inj ended).2
    rw [behind] at pauses
    exact nomatch pauses

end

/-- Ordinary orderings are determined by their list. -/
theorem orderings_inj {orderings orderings' : List (OrderingTerm Expr)} (hne : orderings ≠ [])
    (hne' : orderings' ≠ []) (legible : ∀ o ∈ orderings, o.expr.Legible)
    (legible' : ∀ o ∈ orderings', o.expr.Legible) {r r' : List Char} (hr : Pauses r) (hr' : Pauses r')
    (ends : r.head? ≠ some ',') (ends' : r'.head? ≠ some ',')
    (h : spellList OrderingTerm.spell orderings r = spellList OrderingTerm.spell orderings' r') :
    orderings.map (OrderingTerm.bare false) = orderings'.map (OrderingTerm.bare false) ∧ r = r' := by
  have part : ∀ {o o' : OrderingTerm Expr} {r r' : List Char}, o.expr.Legible → o'.expr.Legible →
      Pauses r → Pauses r' → o.spell r = o'.spell r' →
      OrderingTerm.bare false o = OrderingTerm.bare false o' ∧ r = r' :=
    fun ho ho' _ _ => OrderingTerm.spell_inj ho ho'
  exact spellList_inj .comma part hne hne' legible legible' hr hr' ends ends' h

/-- With the scores a text and what it leaves out determine the orderings of a ranking. -/
theorem ranked_bare_eq : ∀ {os os' : List (OrderingTerm Expr)},
    os.map OrderingTerm.unwritten = os'.map OrderingTerm.unwritten →
    ((os.filter (·.expr.isScoring)).map (·.expr)).map Expr.bare =
      ((os'.filter (·.expr.isScoring)).map (·.expr)).map Expr.bare →
    os.map (OrderingTerm.bare true) = os'.map (OrderingTerm.bare true)
  | [], [], _, _ => rfl
  | [], _ :: _, h, _ => nomatch h
  | _ :: _, [], h, _ => nomatch h
  | o :: os, o' :: os', unwritten, scores => by
    rw [List.map_cons, List.map_cons] at unwritten
    obtain ⟨first, others⟩ := List.cons.inj unwritten
    obtain ⟨expr, direction⟩ := Prod.mk.inj first
    rw [List.map_cons, List.map_cons]
    cases scoring : o.expr.isScoring <;> cases scoring' : o'.expr.isScoring <;>
      rw [scoring, scoring'] at expr
    · simp only [List.filter_cons, scoring, scoring', Bool.false_eq_true, if_false] at scores
      have bare : o.expr.bare = o'.expr.bare := Option.some.inj expr
      rw [ranked_bare_eq others scores]
      simp [OrderingTerm.bare, scoring, scoring', bare, direction]
    · exact nomatch expr
    · exact nomatch expr
    · simp only [List.filter_cons, scoring, scoring', if_true, List.map_cons] at scores
      obtain ⟨bare, scores⟩ := List.cons.inj scores
      rw [ranked_bare_eq others scores]
      simp [OrderingTerm.bare, scoring, scoring', bare, direction]

namespace SelectOf

variable {s s' : Select}

theorem isScoring_of_mem_scores {e : Expr} (he : e ∈ s.scores) : e.isScoring := by
  obtain ⟨o, ho, rfl⟩ := List.mem_map.1 he
  exact (List.mem_filter.1 ho).2

theorem length_scores (s : Select) : s.scores.length = s.unwritten.countP (·.1.isNone) := by
  unfold scores scoringOrderings unwritten
  rw [List.length_map, ← List.countP_eq_length_filter, List.countP_map]
  congr 1
  funext o
  cases scoring : o.expr.isScoring <;> simp [OrderingTerm.unwritten, scoring]

theorem spellOrderings_cases (s : Select) (rest : List Char) :
    (s.orderings = [] ∧ s.spellOrderings rest = rest) ∨
    (s.isScoreOrdered = true ∧
      s.spellOrderings rest = " ORDER BY ".toList ++ ("RANK ".toList ++ spellRanking s.scores rest)) ∨
    (s.orderings ≠ [] ∧ s.isScoreOrdered = false ∧
      s.spellOrderings rest = " ORDER BY ".toList ++ spellList OrderingTerm.spell s.orderings rest) := by
  unfold spellOrderings
  by_cases empty : s.orderings.isEmpty
  · rw [if_pos empty]
    exact .inl ⟨List.isEmpty_iff.1 empty, rfl⟩
  · have some : s.orderings ≠ [] := fun h => empty (by rw [h]; rfl)
    rw [if_neg empty]
    cases s.isScoreOrdered with
    | true => exact .inr (.inl ⟨rfl, rfl⟩)
    | false => exact .inr (.inr ⟨some, rfl, rfl⟩)

theorem ends_spellOrderings (s : Select) : Ends (s.spellOrderings s.spellPage) := by
  obtain ⟨-, h⟩ | ⟨-, h⟩ | ⟨-, -, h⟩ := s.spellOrderings_cases s.spellPage
  · rw [h]
    exact s.ends_spellPage
  · rw [h]
    exact .blank (by decide) (by decide) _
  · rw [h]
    exact .blank (by decide) (by decide) _

/-- The page is not taken for orderings. -/
theorem spellPage_ne_order (s : Select) (t : List Char) : s.spellPage ≠ " ORDER BY ".toList ++ t := by
  obtain ⟨h, -⟩ | ⟨e, -, h⟩ := s.spellPage_cases <;> rw [h] <;> exact fun h => nomatch h

theorem spellPage_ne_comma (s : Select) : s.spellPage.head? ≠ some ',' := by
  obtain ⟨h, -⟩ | ⟨e, -, h⟩ := s.spellPage_cases <;> rw [h] <;> exact fun h => nomatch h

theorem spellOrderings_inj (legible : s.IsLegible) (legible' : s'.IsLegible)
    (ranking : s.isScoreOrdered → s'.isScoreOrdered → s.unwritten = s'.unwritten)
    (h : s.spellOrderings s.spellPage = s'.spellOrderings s'.spellPage) :
    s.bare.orderings = s'.bare.orderings ∧ s.spellPage = s'.spellPage := by
  show s.orderings.map (OrderingTerm.bare s.isScoreOrdered) =
    s'.orderings.map (OrderingTerm.bare s'.isScoreOrdered) ∧ _
  have scoring : ∀ {s : Select}, ∀ e ∈ s.scores, e.isScoring := fun _ => isScoring_of_mem_scores
  obtain ⟨none, text⟩ | ⟨ranked, text⟩ | ⟨some, plain, text⟩ := s.spellOrderings_cases s.spellPage <;>
    obtain ⟨none', text'⟩ | ⟨ranked', text'⟩ | ⟨some', plain', text'⟩ :=
      s'.spellOrderings_cases s'.spellPage <;> rw [text, text'] at h
  · rw [none, none']
    exact ⟨rfl, h⟩
  · exact absurd h (s.spellPage_ne_order _)
  · exact absurd h (s.spellPage_ne_order _)
  · exact absurd h.symm (s'.spellPage_ne_order _)
  · have unwritten := ranking ranked ranked'
    have length : s.scores.length = s'.scores.length := by
      rw [length_scores, length_scores, unwritten]
    obtain ⟨scores, rest⟩ := spellRanking_inj length (legible.scores ranked)
      (legible'.scores ranked') s.ends_spellPage s'.ends_spellPage
      (List.append_cancel_left (List.append_cancel_left h))
    rw [ranked, ranked']
    exact ⟨ranked_bare_eq unwritten scores, rest⟩
  · exact absurd (List.append_cancel_left h) (ranking_ne_orderings (legible.scores ranked) scoring
      some' (legible'.orderings plain') _ s'.ends_spellPage.pauses)
  · exact absurd h.symm (s'.spellPage_ne_order _)
  · exact absurd (List.append_cancel_left h).symm (ranking_ne_orderings (legible'.scores ranked')
      scoring some (legible.orderings plain) _ s.ends_spellPage.pauses)
  · rw [plain, plain']
    exact orderings_inj some some' (legible.orderings plain) (legible'.orderings plain')
      s.ends_spellPage.pauses s'.ends_spellPage.pauses s.spellPage_ne_comma s'.spellPage_ne_comma
      (List.append_cancel_left h)

/-! ## 6. Whole selects -/

theorem spellPredicate_cases (s : Select) (rest : List Char) :
    (s.predicate = none ∧ s.spellPredicate rest = rest) ∨
      ∃ e ∈ s.predicate, s.spellPredicate rest = " WHERE ".toList ++ e.spell rest := by
  unfold spellPredicate
  cases s.predicate with
  | none => exact .inl ⟨rfl, rfl⟩
  | some e => exact .inr ⟨e, rfl, rfl⟩

theorem ends_spellPredicate (s : Select) :
    Ends (s.spellPredicate (s.spellOrderings s.spellPage)) := by
  obtain ⟨-, h⟩ | ⟨e, -, h⟩ := s.spellPredicate_cases (s.spellOrderings s.spellPage)
  · rw [h]
    exact s.ends_spellOrderings
  · rw [h]
    exact .blank (by decide) (by decide) _

/-- Orderings and page are not taken for a predicate. -/
theorem spellOrderings_ne_where (s : Select) (t : List Char) :
    s.spellOrderings s.spellPage ≠ " WHERE ".toList ++ t := by
  obtain ⟨-, h⟩ | ⟨-, h⟩ | ⟨-, -, h⟩ := s.spellOrderings_cases s.spellPage
  · obtain ⟨page, -⟩ | ⟨e, -, page⟩ := s.spellPage_cases <;> rw [h, page] <;> exact fun h => nomatch h
  · rw [h]
    exact fun h => nomatch h
  · rw [h]
    exact fun h => nomatch h

theorem spellPredicate_inj (legible : s.IsLegible) (legible' : s'.IsLegible)
    (h : s.spellPredicate (s.spellOrderings s.spellPage) =
      s'.spellPredicate (s'.spellOrderings s'.spellPage)) :
    s.predicate.map Expr.bare = s'.predicate.map Expr.bare ∧
      s.spellOrderings s.spellPage = s'.spellOrderings s'.spellPage := by
  obtain ⟨none, text⟩ | ⟨e, he, text⟩ := s.spellPredicate_cases (s.spellOrderings s.spellPage) <;>
    obtain ⟨none', text'⟩ | ⟨e', he', text'⟩ :=
      s'.spellPredicate_cases (s'.spellOrderings s'.spellPage) <;> rw [text, text'] at h
  · rw [none, none']
    exact ⟨rfl, h⟩
  · exact absurd h (s.spellOrderings_ne_where _)
  · exact absurd h.symm (s'.spellOrderings_ne_where _)
  · obtain ⟨bare, rest⟩ := e.determines (legible.predicate e he) (legible'.predicate e' he')
      s.ends_spellOrderings s'.ends_spellOrderings (List.append_cancel_left h)
    rw [he, he']
    exact ⟨congrArg some bare, rest⟩

theorem bare_projection (s : Select) : s.bare.projection =
    (bareColumns s.columns).map fun c => ⟨.scalar c.1, c.2⟩ := by
  unfold bareColumns columns
  rw [List.map_map, List.map_map, List.length_map]
  refine List.map_congr_left fun p _ => ?_
  obtain ⟨item, name⟩ := p
  cases item with
  | scalar e => rfl
  | entity t path =>
    simp only [Function.comp, ProjectionItem.toExpr, Expr.bare]
    rfl

/-- Whether the rows are distinct is seen at once. -/
theorem spellDistinct_inj (legible : s.IsLegible) (legible' : s'.IsLegible) (hne : s.columns ≠ [])
    (hne' : s'.columns ≠ []) {u u' : List Char}
    (h : (if s.distinct then "DISTINCT ".toList else []) ++
        spellColumns s.columns (" FROM root ".toList ++ u) =
      (if s'.distinct then "DISTINCT ".toList else []) ++
        spellColumns s'.columns (" FROM root ".toList ++ u')) :
    s.distinct = s'.distinct ∧ spellColumns s.columns (" FROM root ".toList ++ u) =
      spellColumns s'.columns (" FROM root ".toList ++ u') := by
  cases distinct : s.distinct <;> cases distinct' : s'.distinct <;> rw [distinct, distinct'] at h
  · exact ⟨rfl, h⟩
  · exact absurd h (spellColumns_ne_distinct legible.columns hne
      (fresh_spellColumns legible'.columns hne' u') u)
  · exact absurd h.symm (spellColumns_ne_distinct legible'.columns hne'
      (fresh_spellColumns legible.columns hne u) u')
  · exact ⟨rfl, List.append_cancel_left h⟩

/-- The text of a select determines it but for what execution does not read. -/
theorem bare_eq_of_spell (legible : s.IsLegible) (legible' : s'.IsLegible) (hne : s.columns ≠ [])
    (hne' : s'.columns ≠ []) (container : s.container = s'.container)
    (ranking : s.isScoreOrdered → s'.isScoreOrdered → s.unwritten = s'.unwritten)
    (h : s.spell = s'.spell) : s.bare = s'.bare := by
  unfold spell at h
  obtain ⟨distinct, h⟩ := spellDistinct_inj legible legible' hne hne' (List.append_cancel_left h)
  obtain ⟨columns, h⟩ := spellColumns_inj legible.columns legible'.columns hne hne' h
  obtain ⟨source, h⟩ := Expr.word_append_inj legible.source legible'.source
    s.ends_spellPredicate.pauses.stops_word s'.ends_spellPredicate.pauses.stops_word h
  obtain ⟨predicate, h⟩ := spellPredicate_inj legible legible' h
  obtain ⟨orderings, h⟩ := spellOrderings_inj legible legible' ranking h
  obtain ⟨offset, limit⟩ := spellPage_inj legible legible' h
  have projection : s.bare.projection = s'.bare.projection := by
    rw [bare_projection, bare_projection, columns]
  have eta : ∀ s : Select, s.bare = ⟨s.container, s.source, s.bare.projection,
      s.predicate.map Expr.bare, s.bare.orderings, s.limit.map Expr.bare, s.pageOffset.map Expr.bare,
      s.distinct⟩ := fun _ => rfl
  rw [eta s, eta s', container, source, projection, predicate, orderings, limit, offset, distinct]

theorem columns_ne_nil {p : Parameters} {c : Command} (h : Command.ofSelect s p = .ok c) :
    s.columns ≠ [] := by
  simp only [Command.ofSelect, SelectOf.fragments, bind_eq_ok] at h
  obtain ⟨-, ⟨projection, hprojection, -⟩, -⟩ := h
  intro empty
  unfold projectionFragments at hprojection
  rw [List.map_eq_nil_iff.1 empty] at hprojection
  cases hprojection

end SelectOf

/-- **The text of a command determines the outcome of its select.**  Selects of one container that
are written as one text with one list of parameters are run with one outcome over every store,
partition and layout, if they are plain and clear and, where both rank their rows, agree in what the
text of a ranking leaves out. -/
theorem command_determines_result {s s' : Select} (container : s.container = s'.container)
    (plain : s.IsPlain) (plain' : s'.IsPlain) (clear : s.IsClear) (clear' : s'.IsClear)
    (ranking : s.isScoreOrdered → s'.isScoreOrdered → s.unwritten = s'.unwritten)
    {p p' : Parameters} {c c' : Command} (h : Command.ofSelect s p = .ok c)
    (h' : Command.ofSelect s' p' = .ok c') (text : c.text = c'.text)
    (parameters : c.parameters = c'.parameters) (store : Store) (partitionKey : Option String)
    (layout : RowLayout) : store.execute ⟨s.container, partitionKey, layout, c, s⟩ =
      store.execute ⟨s'.container, partitionKey, layout, c', s'⟩ := by
  have legible := plain.isLegible clear
  have legible' := plain'.isLegible clear'
  have spelled : s.spell = s'.spell := by
    rw [← SelectOf.spell_of_ofSelect legible h, ← SelectOf.spell_of_ofSelect legible' h', text]
  have bare := SelectOf.bare_eq_of_spell legible legible' (SelectOf.columns_ne_nil h)
    (SelectOf.columns_ne_nil h') container ranking spelled
  have bindings : c.bindings = c'.bindings := by
    unfold Command.bindings
    rw [parameters]
  unfold Store.execute
  dsimp only
  rw [← s.run_bare, ← s'.run_bare, bare, bindings, container]

/-- Posts above a bound, ranked by a word, equal ones by their ids. -/
def rankedPosts (type : DataType) (above : Expr) (offset : Option Expr) : Select where
  container := "posts"
  source := "c"
  projection := [⟨.scalar (.column "c" ["id"] type none), "id"⟩,
    ⟨.scalar (.column "c" ["tag"] .utf8 none), "tag"⟩]
  predicate := some (.binary .greaterThan (.column "c" ["id"] type none) above none)
  orderings := [
    ⟨.function "FullTextScore" [.column "c" ["tag"] .utf8 none, .parameter "word" .utf8 none]
      true .float64 none, false⟩,
    ⟨.column "c" ["id"] type none, false⟩]
  limit := some (.constant (.int32 3) .int32 none)
  offset := offset
  distinct := false

/-- Posts with ids of 32 bits. -/
def narrowPosts : Select := rankedPosts .int32 (.constant (.int32 (-1)) .int32 none) none

/-- The same posts with ids of 64 bits, the minus in front of the number and the first row named. -/
def widePosts : Select :=
  rankedPosts .int64 (.unary .negate (.constant (.int64 1) .int64 none) none)
    (some (.constant (.int64 0) .int64 none))

def rankingWord : Parameters := .ofList [("word", .scalar (.text "b"))]

/-- The two selects differ in the types of their columns, in the place of a minus and in an offset,
and have one text. -/
theorem command_determines_result_rankedPosts :
    ∃ c c', Command.ofSelect narrowPosts rankingWord = .ok c ∧
      Command.ofSelect widePosts rankingWord = .ok c' ∧
      c.text = c'.text ∧ c.parameters = c'.parameters ∧
      ∀ (store : Store) (partitionKey : Option String) (layout : RowLayout),
        store.execute ⟨"posts", partitionKey, layout, c, narrowPosts⟩ =
          store.execute ⟨"posts", partitionKey, layout, c', widePosts⟩ := by
  have text : ∃ c c', Command.ofSelect narrowPosts rankingWord = .ok c ∧
      Command.ofSelect widePosts rankingWord = .ok c' ∧ c.text = c'.text ∧
      c.parameters = c'.parameters :=
    ⟨_, _, rfl, rfl, by decide +kernel, rfl⟩
  obtain ⟨c, c', h, h', text, parameters⟩ := text
  have container : narrowPosts.container = widePosts.container := rfl
  exact ⟨c, c', h, h', text, parameters, command_determines_result container (by decide) (by decide)
    (by decide) (by decide +kernel) (fun _ _ => rfl) h h' text parameters⟩

/-- The numbers that rows consist of, if nothing fails. -/
def rowNumbers : Except RunError (List Row) → Option (List Int)
  | .error _ => none
  | .ok rows => rows.mapM fun
    | .document (.number (.integer n)) => some n
    | _ => none

/-- Plain selects of one container that are finalized to one command but give these different numbers
over a store. -/
def Collide (store : Store) (t t' : Select) (numbers numbers' : Option (List Int)) : Prop :=
  ∃ s s' c c', t.finalize .empty = .ok (s, c) ∧ t'.finalize .empty = .ok (s', c') ∧
    s.container = s'.container ∧ s.IsPlain ∧ s'.IsPlain ∧
    c.text = c'.text ∧ c.parameters = c'.parameters ∧ numbers ≠ numbers' ∧
    rowNumbers (store.execute ⟨s.container, none, .document, c, s⟩) = numbers ∧
    rowNumbers (store.execute ⟨s'.container, none, .document, c', s'⟩) = numbers'

/-- Three posts, the first of them without a tag. -/
def untaggedStore : Store :=
  let post (id : Int) (tag : Json) : StoredDocument :=
    ⟨"posts", toString id, none, .object [("id", .ofInt id), ("tag", tag)]⟩
  ⟨[post 1 .null, post 2 (.string "a"), post 3 (.string "a b a")]⟩

/-- The ids of all posts in some order. -/
def orderedPosts (orderings : List (OrderingTerm Expr)) : Select where
  container := "posts"
  source := "c"
  projection := [⟨.scalar (.column "c" ["id"] .int32 none), "id"⟩]
  predicate := none
  orderings := orderings
  limit := none
  offset := none
  distinct := false

/-- How often a word occurs in the tag. -/
def wordCount (word : String) : Expr :=
  .function "FullTextScore" [.column "c" ["tag"] .utf8 none, .constant (.text word) .utf8 none] true
    .float64 none

/-- **Commands that hide their results.**  A test for null and a comparison with null; a membership
of a negative and the negative of a membership; a ranking in either direction, and with and without
an ordering of ties; two rankings that are fused and a function of the fusion's name; a membership in
nothing, whose item fails, and false. -/
theorem commands_collide :
    let id : Expr := .column "c" ["id"] .int32 none
    let tag : Expr := .column "c" ["tag"] .utf8 none
    let minusOne : Expr := .constant (.int32 (-1)) .int32 none
    Collide untaggedStore (postsWhere (.unary .isNull tag none))
      (postsWhere (.binary .equal tag (.constant .null .object none) none)) (some [1]) (some []) ∧
    Collide untaggedStore (postsWhere (.inList (.unary .negate id none) [minusOne]))
      (postsWhere (.unary .negate (.inList id [minusOne]) none)) (some [1]) (some []) ∧
    Collide untaggedStore (orderedPosts [⟨wordCount "a", false⟩])
      (orderedPosts [⟨wordCount "a", true⟩]) (some [3, 2, 1]) (some [1, 2, 3]) ∧
    Collide untaggedStore (orderedPosts [⟨wordCount "x", false⟩, ⟨id, false⟩])
      (orderedPosts [⟨wordCount "x", false⟩]) (some [3, 2, 1]) (some [1, 2, 3]) ∧
    Collide untaggedStore (orderedPosts [⟨wordCount "a", false⟩, ⟨wordCount "b", false⟩])
      (orderedPosts [⟨.function "RRF" [wordCount "a", wordCount "b"] true .float64 none, false⟩])
      (some [3, 1, 2]) none ∧
    Collide untaggedStore (postsWhere (.constant (.bool false) .boolean none))
      (postsWhere (.inList (.function "Unknown" [] false .utf8 none) [])) (some []) none := by
  refine ⟨?_, ?_, ?_, ?_, ?_, ?_⟩ <;>
    exact ⟨_, _, _, _, rfl, rfl, rfl, by decide, by decide, by decide +kernel, rfl, by decide,
      by decide +kernel, by decide +kernel⟩

end DocQuery
