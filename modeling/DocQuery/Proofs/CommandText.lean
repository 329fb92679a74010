/-
# The text of a select

Commands are written as fragments, texts with holes for parameters, and then put together.
`SelectOf.spell` is the same text without fragments: a function of the select and of what follows,
one for each clause.  The command of a legible select is written as that text
(`SelectOf.spell_of_ofSelect`), so what is said about the text is said about commands.

* `Fragment.spell` is what fragments come to, and it goes through `AND`, lists and brackets part
  by part (`spellList_fragments`).
* The columns, the predicate, the orderings and the page follow one another; each is written in
  front of the rest, so that no text has to be cut again.
* Ranked rows are written with the scores that rank them (`spellRanking`), several as the
  arguments of their fusion; an only column is written without its name.

`SelectOf.IsLegible` is that all written expressions are, and that names are plain identifiers.
It follows from `SelectOf.IsPlain` and `SelectOf.IsClear`, which can be decided.
-/
import DocQuery.Proofs.CommandParameters
import DocQuery.Proofs.ExpressionText

namespace DocQuery

/-! ## 1. The text of fragments -/

/-- The characters of a text that is written as fragments. -/
def Fragment.spell (fragments : List Fragment) : List Char := fragments.flatMap (·.render.toList)

theorem Fragment.spell_append (fs gs : List Fragment) :
    Fragment.spell (fs ++ gs) = Fragment.spell fs ++ Fragment.spell gs := List.flatMap_append

/-- Parts that stand behind a first one, each with a comma before it. -/
def Fragment.spellOthers (lists : List (List Fragment)) : List Char :=
  lists.flatMap fun fs => ',' :: ' ' :: Fragment.spell fs

theorem Fragment.spell_separated (first : List Fragment) : ∀ others : List (List Fragment),
    Fragment.spell (separated ", " (first :: others)) =
      Fragment.spell first ++ Fragment.spellOthers others
  | [] => by simp [separated, spellOthers]
  | second :: others => by
    rw [separated, spell_append]
    · show _ ++ (", ".toList ++ Fragment.spell (separated ", " (second :: others))) = _
      rw [spell_separated second others]
      simp [spellOthers]
    · exact List.cons_ne_nil _ _

theorem toList_pathText (source : String) (path : List String) (rest : List Char) :
    (pathText source path).toList ++ rest = source.toList ++ spellPath path rest := by
  unfold pathText
  rw [String.toList_join, List.flatMap_cons, List.append_assoc]
  congr 1
  induction path with
  | nil => rfl
  | cons name path ih => simp [spellPath, ih]

namespace Expr

mutual

/-- The fragments of a legible expression are its text. -/
theorem spell_fragments : ∀ (e : Expr), e.Legible → ∀ {fs : List Fragment}, e.fragments = .ok fs →
    ∀ rest : List Char, Fragment.spell fs ++ rest = e.spell rest
  | .column source path _ _, _, fs, h, rest => by
    rw [fragments] at h
    rw [← Except.ok.inj h, spell, ← toList_pathText]
    simp [Fragment.spell, Fragment.render]
  | .constant value _ _, _, fs, h, rest => by
    rw [fragments] at h
    rw [← Except.ok.inj h, spell]
    simp [Fragment.spell, Fragment.render]
  | .parameter name _ _, _, fs, h, rest => by
    rw [fragments] at h
    rw [← Except.ok.inj h, spell]
    simp [Fragment.spell, Fragment.render]
  | .binary op left right _, legible, fs, h, rest => by
    rw [fragments] at h
    simp only [bind_eq_ok, pure_eq_ok] at h
    obtain ⟨ls, hl, rs, hr, rfl⟩ := h
    rw [spell, ← spell_fragments left legible.2.1 hl, ← spell_fragments right legible.2.2 hr]
    simp [Fragment.spell, Fragment.render]
  | .unary op operand _, legible, fs, h, rest => by
    rw [fragments] at h
    obtain ⟨os, ho, h⟩ := bind_eq_ok.1 h
    cases op <;> rw [← pure_eq_ok.1 h, spell, ← spell_fragments operand legible.2 ho] <;>
      simp [Fragment.spell, Fragment.render]
  | .function name args _ _ _, legible, fs, h, rest => by
    rw [fragments] at h
    simp only [bind_eq_ok, pure_eq_ok] at h
    obtain ⟨as, has, rfl⟩ := h
    rw [spell, ← spell_separated args legible.2 has]
    simp [Fragment.spell, Fragment.render]
  | .inList item [], legible, _, _, _ => absurd rfl legible.1.2
  | .inList item (value :: values), legible, fs, h, rest => by
    rw [fragments] at h
    simp only [bind_eq_ok, pure_eq_ok] at h
    obtain ⟨is, hi, first, hfirst, vs, hvs, rfl⟩ := h
    have list : fragmentsList (value :: values) = .ok (first :: vs) := by
      rw [fragmentsList, hfirst]
      show fragmentsList values >>= _ = _
      rw [hvs]
      rfl
    rw [spell, ← spell_fragments item legible.2.1 hi, ← spell_separated _ legible.2.2 list]
    simp [Fragment.spell, Fragment.render]
  | .inParameter .., legible, _, _, _ => legible.1.1.elim
  | .inSubquery .., legible, _, _, _ => legible.1.1.elim

theorem spell_separated : ∀ (es : List Expr), EverywhereList (fun x => x.IsPlain ∧ x.IsClear) es →
    ∀ {lists : List (List Fragment)}, fragmentsList es = .ok lists → ∀ rest : List Char,
    Fragment.spell (separated ", " lists) ++ rest = spellItems es rest
  | [], _, _, h, rest => by
    rw [fragmentsList] at h
    rw [← Except.ok.inj h, spellItems]
    rfl
  | e :: es, legible, _, h, rest => by
    rw [fragmentsList] at h
    simp only [bind_eq_ok, pure_eq_ok] at h
    obtain ⟨first, hfirst, others, hothers, rfl⟩ := h
    rw [Fragment.spell_separated, List.append_assoc, spell_others es legible.2 hothers,
      spell_fragments e legible.1 hfirst, spellItems]

theorem spell_others : ∀ (es : List Expr), EverywhereList (fun x => x.IsPlain ∧ x.IsClear) es →
    ∀ {lists : List (List Fragment)}, fragmentsList es = .ok lists → ∀ rest : List Char,
    Fragment.spellOthers lists ++ rest = spellTail es rest
  | [], _, _, h, rest => by
    rw [fragmentsList] at h
    rw [← Except.ok.inj h, spellTail]
    rfl
  | e :: es, legible, _, h, rest => by
    rw [fragmentsList] at h
    simp only [bind_eq_ok, pure_eq_ok] at h
    obtain ⟨first, hfirst, others, hothers, rfl⟩ := h
    rw [spellTail, ← spell_others es legible.2 hothers, ← spell_fragments e legible.1 hfirst]
    simp [Fragment.spellOthers]

end

end Expr

/-! ## 2. The text of a select -/

section

variable {α : Type} {text : α → List Char → List Char} {write : α → Except QueryError (List Fragment)}

theorem spellOthers_fragments : ∀ {as : List α}, (∀ a ∈ as, ∀ fs, write a = .ok fs →
    ∀ rest, Fragment.spell fs ++ rest = text a rest) → ∀ {lists : List (List Fragment)},
    as.mapM write = .ok lists → ∀ rest, Fragment.spellOthers lists ++ rest = spellOthers text as rest
  | [], _, _, h, rest => by
    rw [mapM_nil_eq_ok.1 h]
    rfl
  | a :: as, written, _, h, rest => by
    obtain ⟨first, others, hfirst, hothers, rfl⟩ := mapM_cons_eq_ok.1 h
    rw [spellOthers, ← spellOthers_fragments (fun b hb => written b (List.mem_cons_of_mem _ hb)) hothers,
      ← written a List.mem_cons_self first hfirst]
    simp [Fragment.spellOthers]

/-- Lists that are written part by part. -/
theorem spellList_fragments {as : List α} (written : ∀ a ∈ as, ∀ fs, write a = .ok fs →
    ∀ rest, Fragment.spell fs ++ rest = text a rest) {lists : List (List Fragment)}
    (h : as.mapM write = .ok lists) (rest : List Char) :
    Fragment.spell (separated ", " lists) ++ rest = spellList text as rest := by
  cases as with
  | nil =>
    rw [mapM_nil_eq_ok.1 h]
    rfl
  | cons a as =>
    obtain ⟨first, others, hfirst, hothers, rfl⟩ := mapM_cons_eq_ok.1 h
    rw [Fragment.spell_separated, List.append_assoc, spellList,
      spellOthers_fragments (fun b hb => written b (List.mem_cons_of_mem _ hb)) hothers,
      written a List.mem_cons_self first hfirst]

end

/-- What a projection gives as an expression; an entity is the column of its path. -/
def ProjectionItem.toExpr (source : String) : ProjectionItem Expr → Expr
  | .scalar e => e
  | .entity _ path => .column source path .object none

/-- A column with its name. -/
def spellColumn (column : Expr × String) (rest : List Char) : List Char :=
  column.1.spell (" AS ".toList ++ (column.2.toList ++ rest))

/-- An only column is written without its name. -/
def spellColumns : List (Expr × String) → List Char → List Char
  | [(e, _)], rest => "VALUE ".toList ++ e.spell rest
  | columns, rest => spellList spellColumn columns rest

theorem spellColumns_one (e : Expr) (name : String) (rest : List Char) :
    spellColumns [(e, name)] rest = "VALUE ".toList ++ e.spell rest := rfl

def OrderingTerm.spell (o : OrderingTerm Expr) (rest : List Char) : List Char :=
  o.expr.spell ((if o.ascending then " ASC" else " DESC").toList ++ rest)

/-- Several scores are written as arguments of their fusion. -/
def spellRanking : List Expr → List Char → List Char
  | [only], rest => only.spell rest
  | many, rest => "RRF".toList ++ '(' :: Expr.spellItems many (')' :: rest)

theorem spellRanking_several {scores : List Expr} (several : scores.length ≠ 1) (rest : List Char) :
    spellRanking scores rest = "RRF(".toList ++ Expr.spellItems scores (')' :: rest) := by
  rcases scores with _ | ⟨only, _ | ⟨second, others⟩⟩
  · rfl
  · exact absurd rfl several
  · rfl

namespace SelectOf

/-- The columns of a select, with their names. -/
def columns (s : Select) : List (Expr × String) :=
  s.projection.map fun p => (p.item.toExpr s.source, p.name)

/-- The functions that rank the rows. -/
def scores (s : Select) : List Expr := s.scoringOrderings.map (·.expr)

def spellPredicate (s : Select) (rest : List Char) : List Char :=
  match s.predicate with
  | none => rest
  | some e => " WHERE ".toList ++ e.spell rest

def spellOrderings (s : Select) (rest : List Char) : List Char :=
  if s.orderings.isEmpty then rest
  else if s.isScoreOrdered then " ORDER BY RANK ".toList ++ spellRanking s.scores rest
  else " ORDER BY ".toList ++ spellList OrderingTerm.spell s.orderings rest

def spellLimit (s : Select) : List Char :=
  match s.limit with
  | none => []
  | some e => " LIMIT ".toList ++ e.spell []

def spellPage (s : Select) : List Char :=
  match s.pageOffset with
  | none => []
  | some e => " OFFSET ".toList ++ e.spell s.spellLimit

/-- The text of a select. -/
def spell (s : Select) : List Char :=
  "SELECT ".toList ++ ((if s.distinct then "DISTINCT ".toList else []) ++
    spellColumns s.columns (" FROM root ".toList ++ (s.source.toList ++
      s.spellPredicate (s.spellOrderings s.spellPage))))

/-- The expressions that a text mentions. -/
def written (s : Select) : List Expr :=
  s.columns.map Prod.fst ++ s.predicate.toList ++ s.mentionedOrderings.map (·.expr) ++
    s.offset.toList ++ s.limit.toList

/-- Plain identifiers for all names; no floats or byte strings, and collections are inlined. -/
structure IsPlain (s : Select) : Prop where
  source : isIdentifier s.source
  names : ∀ p ∈ s.projection, isIdentifier p.name
  written : ∀ e ∈ s.written, e.Everywhere Expr.IsPlain

/-- No expression looks like another when it is written. -/
def IsClear (s : Select) : Prop := ∀ e ∈ s.written, e.Everywhere Expr.IsClear

instance (s : Select) : Decidable s.IsPlain :=
  decidable_of_iff (isIdentifier s.source = true ∧ (∀ p ∈ s.projection, isIdentifier p.name = true) ∧
      ∀ e ∈ s.written, e.Everywhere Expr.IsPlain)
    ⟨fun h => ⟨h.1, h.2.1, h.2.2⟩, fun h => ⟨h.source, h.names, h.written⟩⟩

instance (s : Select) : Decidable s.IsClear :=
  inferInstanceAs (Decidable (∀ e ∈ s.written, e.Everywhere Expr.IsClear))

end SelectOf

/-- A select all of whose written expressions are legible, with plain names. -/
structure SelectOf.IsLegible (s : Select) : Prop where
  source : isIdentifier s.source
  columns : ∀ c ∈ s.columns, c.1.Legible ∧ isIdentifier c.2
  predicate : ∀ e ∈ s.predicate, e.Legible
  scores : s.isScoreOrdered → ∀ e ∈ s.scores, e.Legible
  orderings : s.isScoreOrdered = false → ∀ o ∈ s.orderings, o.expr.Legible
  offset : ∀ e ∈ s.pageOffset, e.Legible
  limit : ∀ e ∈ s.limit, e.Legible

theorem SelectOf.IsPlain.isLegible {s : Select} (plain : s.IsPlain) (clear : s.IsClear) :
    s.IsLegible := by
  have legible : ∀ e ∈ s.written, e.Legible :=
    fun e he => e.everywhere_and (plain.written e he) (clear e he)
  simp only [SelectOf.written, List.mem_append, List.mem_map, Option.mem_toList] at legible
  refine ⟨plain.source, ?_, fun e he => legible e (.inl (.inl (.inl (.inr he)))), ?_, ?_, ?_,
    fun e he => legible e (.inr he)⟩
  · intro c hc
    obtain ⟨p, hp, rfl⟩ := List.mem_map.1 hc
    exact ⟨legible _ (.inl (.inl (.inl (.inl ⟨_, hc, rfl⟩)))), plain.names p hp⟩
  · intro ranked e he
    obtain ⟨o, ho, rfl⟩ := List.mem_map.1 he
    exact legible _ (.inl (.inl (.inr ⟨o, by rwa [SelectOf.mentionedOrderings, if_pos ranked], rfl⟩)))
  · intro plainly o ho
    refine legible _ (.inl (.inl (.inr ⟨o, ?_, rfl⟩)))
    rwa [SelectOf.mentionedOrderings, if_neg (by simp [plainly])]
  · intro e he
    unfold SelectOf.pageOffset at he
    split at he
    · rw [← Option.some.inj he]
      exact ⟨rfl, trivial⟩
    · exact legible e (.inl (.inr he))

/-! ## 3. Commands are written as these texts -/

theorem ProjectionItem.spell_fragments {source : String} {item : ProjectionItem Expr}
    (legible : (item.toExpr source).Legible) {fs : List Fragment}
    (h : item.fragments source = .ok fs) (rest : List Char) :
    Fragment.spell fs ++ rest = (item.toExpr source).spell rest := by
  cases item with
  | scalar e => exact e.spell_fragments legible h rest
  | entity t path =>
    rw [← Except.ok.inj h, toExpr, Expr.spell, ← toList_pathText]
    simp [Fragment.spell, Fragment.render]

theorem mapM_fragments (os : List (OrderingTerm Expr)) :
    os.mapM (·.expr.fragments) = Expr.fragmentsList (os.map (·.expr)) := by
  induction os with
  | nil => rfl
  | cons o os ih =>
    rw [List.mapM_cons, List.map_cons, Expr.fragmentsList, ← ih]

namespace SelectOf

variable {s : Select} {fs : List Fragment}

theorem spell_projectionFragments (legible : ∀ c ∈ s.columns, c.1.Legible)
    (h : s.projectionFragments = .ok fs) (rest : List Char) :
    Fragment.spell fs ++ rest = spellColumns s.columns rest := by
  have item : ∀ p ∈ s.projection, (p.item.toExpr s.source).Legible :=
    fun p hp => legible _ (List.mem_map_of_mem hp)
  unfold projectionFragments at h
  unfold columns
  generalize s.projection = projection at h item
  rcases projection with _ | ⟨p, _ | ⟨p', ps⟩⟩
  · exact nomatch h
  · obtain ⟨fs, hfs, h⟩ := bind_eq_ok.1 h
    rw [← pure_eq_ok.1 h]
    rw [List.map_cons, List.map_nil, spellColumns_one,
      ← ProjectionItem.spell_fragments (item p List.mem_cons_self) hfs]
    simp [Fragment.spell, Fragment.render]
  · obtain ⟨lists, hlists, h⟩ := bind_eq_ok.1 h
    rw [← pure_eq_ok.1 h]
    show _ = spellList spellColumn
      ((p :: p' :: ps).map fun p => (p.item.toExpr s.source, p.name)) rest
    rw [spellList_map]
    refine spellList_fragments (fun q hq fs hfs rest => ?_) hlists rest
    obtain ⟨es, hes, hfs⟩ := bind_eq_ok.1 hfs
    rw [← pure_eq_ok.1 hfs, spellColumn, ← ProjectionItem.spell_fragments (item q hq) hes]
    simp [Fragment.spell, Fragment.render]

theorem spell_predicateFragments (legible : ∀ e ∈ s.predicate, e.Legible)
    (h : s.predicateFragments = .ok fs) (rest : List Char) :
    Fragment.spell fs ++ rest = s.spellPredicate rest := by
  unfold predicateFragments at h
  unfold spellPredicate
  cases hs : s.predicate with
  | none =>
    rw [hs] at h
    rw [← Except.ok.inj h]
    rfl
  | some e =>
    rw [hs] at h
    obtain ⟨es, hes, h⟩ := bind_eq_ok.1 h
    rw [← pure_eq_ok.1 h]
    dsimp only
    rw [← e.spell_fragments (legible e hs) hes]
    simp [Fragment.spell, Fragment.render]

theorem spell_orderingFragments (legible : s.IsLegible) (h : s.orderingFragments = .ok fs)
    (rest : List Char) : Fragment.spell fs ++ rest = s.spellOrderings rest := by
  unfold orderingFragments at h
  unfold spellOrderings
  split at h
  · next empty =>
    rw [← Except.ok.inj h, if_pos empty]
    rfl
  · next some =>
    rw [if_neg some]
    split at h
    · next ranked =>
      rw [if_pos ranked]
      obtain ⟨lists, hlists, h⟩ := bind_eq_ok.1 h
      rw [mapM_fragments] at hlists
      have listed := Expr.everywhereList_iff.2 (legible.scores ranked)
      change Expr.fragmentsList s.scores = .ok lists at hlists
      generalize s.scores = scores at hlists listed
      rcases scores with _ | ⟨only, _ | ⟨second, others'⟩⟩
      · rw [Expr.fragmentsList] at hlists
        rw [← Except.ok.inj hlists] at h
        rw [← pure_eq_ok.1 h]
        simp [Fragment.spell, Fragment.render, separated, spellRanking, Expr.spellItems]
      · simp only [Expr.fragmentsList, bind_eq_ok, pure_eq_ok, Except.ok.injEq, exists_eq_left'] at hlists
        obtain ⟨es, hes, rfl⟩ := hlists
        rw [← pure_eq_ok.1 h, spellRanking, ← only.spell_fragments listed.1 hes]
        simp [Fragment.spell, Fragment.render]
      · obtain ⟨first, next, others, rfl⟩ : ∃ a b ls, lists = a :: b :: ls := by
          simp only [Expr.fragmentsList, bind_eq_ok, pure_eq_ok] at hlists
          obtain ⟨a, -, -, ⟨b, -, ls, -, rfl⟩, rfl⟩ := hlists
          exact ⟨a, b, ls, rfl⟩
        have several : (only :: second :: others').length ≠ 1 := by simp
        rw [← pure_eq_ok.1 h, spellRanking_several several, ← Expr.spell_separated _ listed hlists]
        simp [Fragment.spell, Fragment.render]
    · next plain =>
      rw [if_neg plain]
      obtain ⟨lists, hlists, h⟩ := bind_eq_ok.1 h
      rw [← pure_eq_ok.1 h]
      have ordered : Fragment.spell (separated ", " lists) ++ rest =
          spellList OrderingTerm.spell s.orderings rest := by
        refine spellList_fragments (fun o ho fs hfs rest => ?_) hlists rest
        obtain ⟨es, hes, hfs⟩ := bind_eq_ok.1 hfs
        rw [← pure_eq_ok.1 hfs, OrderingTerm.spell,
          ← o.expr.spell_fragments (legible.orderings (by simpa using plain) o ho) hes]
        simp [Fragment.spell, Fragment.render]
      rw [← ordered]
      simp [Fragment.spell, Fragment.render]

theorem spell_pagingFragments (legible : s.IsLegible) (h : s.pagingFragments = .ok fs) :
    Fragment.spell fs = s.spellPage := by
  have offset := legible.offset
  have limit := legible.limit
  unfold pagingFragments at h
  unfold spellPage spellLimit pageOffset at *
  cases hoffset : s.offset <;> cases hlimit : s.limit <;>
    simp only [hoffset, hlimit, Option.isNone_none, Option.isNone_some, Bool.and_self,
      Bool.and_false, Bool.and_true, if_true, Bool.false_eq_true, if_false, bind_eq_ok,
      pure_eq_ok, Except.ok.injEq, exists_eq_left'] at h offset limit ⊢
  · rw [← h]
    rfl
  · obtain ⟨ls, hls, rfl⟩ := h
    rw [← Expr.spell_fragments _ (limit _ rfl) hls]
    simp [Fragment.spell, Fragment.render, Expr.spell]
    rfl
  · obtain ⟨os, hos, rfl⟩ := h
    rw [← Expr.spell_fragments _ (offset _ rfl) hos]
    simp [Fragment.spell, Fragment.render]
  · obtain ⟨os, hos, ls, hls, rfl⟩ := h
    rw [← Expr.spell_fragments _ (offset _ rfl) hos, ← Expr.spell_fragments _ (limit _ rfl) hls]
    simp [Fragment.spell, Fragment.render]

/-- The text of a command is that of its select. -/
theorem spell_of_ofSelect (legible : s.IsLegible) {p : Parameters} {c : Command}
    (h : Command.ofSelect s p = .ok c) : c.text.toList = s.spell := by
  simp only [Command.ofSelect, bind_eq_ok, pure_eq_ok] at h
  obtain ⟨fs, hfs, parameters, -, rfl⟩ := h
  have written : Fragment.spell fs = s.spell := by
    simp only [SelectOf.fragments, bind_eq_ok, pure_eq_ok] at hfs
    obtain ⟨projection, hprojection, predicate, hpredicate, orderings, horderings, paging, hpaging,
      rfl⟩ := hfs
    unfold spell
    rw [← spell_pagingFragments legible hpaging,
      ← spell_orderingFragments legible horderings,
      ← spell_predicateFragments legible.predicate hpredicate,
      ← spell_projectionFragments (fun c hc => (legible.columns c hc).1) hprojection]
    cases s.distinct <;> simp [Fragment.spell, Fragment.render]
  rw [← written, String.toList_join, List.flatMap_map, Fragment.spell]

end SelectOf

end DocQuery
