/-
# Pages

A page of a request is cut out of its rows after all other steps, so a request with constant
bounds gives a WINDOW of what the request without bounds gives, or the same error
(`Store.execute_page`).  Everything about pages is then about windows of one list: consecutive
ones join (`Store.execute_page_append`), one that may have rows is empty behind the end only
(`Store.isEmpty_page`), and reading pages until one is empty reads all rows
(`Store.readPages_eq`).

What the rows without bounds are is a second matter.  They are those of the documents that the
predicate selects, in the order of the sort (`Store.execute_unpaged`).

* No step loses or repeats a document.  For the sort that is `SelectOf.sortDocuments_perm`, for
  its three ways: plain, by one score, and by several.  A fused sort pairs the documents with
  their scores, so there it rests on there being a score for each (`length_fusedScores`).
* Without `DISTINCT` there is one row for each of these documents.  With it, and rows as lists,
  the rows are the first occurrences, so that no two are equal and the place of each is known
  (`Proofs/DistinctRows.lean`).

`Store.pages_cover` takes the parts together.  A page may be one of no rows; but such a page ends
a reading that goes on until a page is empty, so for reading the pages are to have room.
-/
import DocQuery.Proofs.DistinctRows
import DocQuery.Proofs.Inlining
import DocQuery.Store
import Mathlib.Algebra.Ring.Nat

namespace DocQuery

/-! ## 1. Sorting keeps the documents -/

section

variable {entries sorted : List SortEntry} {shares sums scores : List Double}

theorem length_reciprocalRanks {column : List (OrderingTerm Expr × Json)}
    (h : reciprocalRanks column = some shares) : shares.length = column.length := by
  obtain ⟨order, -, rfl⟩ := Option.map_eq_some_iff.1 h
  rw [List.length_map, List.length_range]

/-- A column that every list has takes one value of each. -/
theorem length_column {α : Type} {lists : List (List α)} {column : Nat}
    (h : ∀ l ∈ lists, column < l.length) :
    (lists.filterMap fun l => l[column]?).length = lists.length :=
  List.filterMap_length_eq_length.2 fun l hl => by rw [List.getElem?_eq_getElem (h l hl)]; rfl

/-- What holds of the shares of each column and is kept by adding holds of the sums. -/
theorem foldlM_addShares_of {P : List Double → Prop}
    {lists : List (List (OrderingTerm Expr × Json))} {columns : List Nat}
    (step : ∀ l l', P l → P l' → P (l.zipWith Double.add l'))
    (shares : ∀ c ∈ columns, ∀ l,
      reciprocalRanks (lists.filterMap fun s => s[c]?) = some l → P l)
    (start : P sums) (h : columns.foldlM (addShares lists) sums = some scores) : P scores := by
  induction columns generalizing sums with
  | nil => exact Option.some.inj h ▸ start
  | cons c columns ih =>
    obtain ⟨added, hadded, h⟩ := Option.bind_eq_some_iff.1 (List.foldlM_cons.symm.trans h)
    obtain ⟨l, hl, rfl⟩ := Option.map_eq_some_iff.1 hadded
    exact ih (fun d hd => shares d (List.mem_cons_of_mem c hd))
      (step sums l start (shares c List.mem_cons_self l hl)) h

/-- Each entry has a fused score, when all have scores for the same orderings. -/
theorem length_fusedScores (h : fusedScores entries = some scores)
    (alike : ∀ a ∈ entries, ∀ b ∈ entries, a.scores.length = b.scores.length) :
    scores.length = entries.length := by
  cases entries with
  | nil => exact Option.some.inj h ▸ rfl
  | cons first rest =>
    rw [fusedScores, List.map_cons] at h
    dsimp only at h
    split at h
    · rw [← Option.some.inj h]
      simp only [List.length_map, List.length_cons]
    · refine foldlM_addShares_of (P := fun l => l.length = (first :: rest).length) ?_ ?_ ?_ h
      · intro l l' hl hl'
        rw [List.length_zipWith, hl, hl', Nat.min_self]
      · intro c hc l hl
        have full : ∀ l ∈ first.scores :: rest.map SortEntry.scores, c < l.length := by
          intro l hl
          obtain ⟨e, he, rfl⟩ := List.mem_map.1 (List.map_cons (f := SortEntry.scores) ▸ hl)
          rw [alike e he first List.mem_cons_self]
          exact List.mem_range.1 hc
        rw [length_reciprocalRanks hl, length_column full, List.length_cons, List.length_map,
          List.length_cons]
      · simp only [List.length_map, List.length_cons]

theorem sortEntries_perm {ranked : Bool} (h : sortEntries ranked entries = some sorted)
    (alike : ∀ a ∈ entries, ∀ b ∈ entries, a.scores.length = b.scores.length) :
    sorted.Perm entries := by
  cases ranked with
  | false => exact sortBy_perm h
  | true =>
    obtain ⟨scores, hscores, h⟩ := Option.bind_eq_some_iff.1 h
    obtain ⟨pairs, hpairs, h⟩ := Option.bind_eq_some_iff.1 h
    have paired : (entries.zip scores).map Prod.fst = entries :=
      List.map_fst_zip (Nat.le_of_eq (length_fusedScores hscores alike).symm)
    have perm := (sortBy_perm hpairs).map Prod.fst
    rwa [paired, Option.some.inj h] at perm

end

namespace SelectOf

variable {s : Select} {parameters : Dictionary Json} {documents sorted : List Json}

theorem sortEntry_eq_ok {document : Json} {entry : SortEntry}
    (h : s.sortEntry parameters document = .ok entry) :
    entry.keys.map Prod.fst = s.orderings ∧ entry.document = document := by
  obtain ⟨keys, hkeys, hentry⟩ := bind_eq_ok.1 h
  cases pure_eq_ok.1 hentry
  refine ⟨?_, rfl⟩
  have named : ∀ o ∈ s.orderings, ∀ key, (do
      return (o, ← o.expr.eval (s.environment parameters document))) = Except.ok key →
      key.1 = o := by
    intro o _ key hkey
    obtain ⟨v, _, hv⟩ := bind_eq_ok.1 hkey
    cases pure_eq_ok.1 hv
    rfl
  rw [map_of_mapM (g := Prod.fst) (k := id) named hkeys, List.map_id]

/-- The scores of an entry are the values of the scoring orderings. -/
theorem length_scores_sortEntry {document : Json} {entry : SortEntry}
    (h : s.sortEntry parameters document = .ok entry) :
    entry.scores.length = (s.orderings.filter (·.expr.isScoring)).length := by
  rw [← (sortEntry_eq_ok h).1, List.filter_map, List.length_map]
  rfl

/-- The entries of documents hold these, in their order. -/
theorem map_document {entries : List SortEntry}
    (h : documents.mapM (s.sortEntry parameters) = .ok entries) :
    entries.map (·.document) = documents := by
  rw [map_of_mapM (g := (·.document)) (k := id) (fun _ _ _ he => (sortEntry_eq_ok he).2) h,
    List.map_id]

/-- **Sorting neither loses nor repeats documents.** -/
theorem sortDocuments_perm (h : s.sortDocuments parameters documents = .ok sorted) :
    sorted.Perm documents := by
  rw [sortDocuments] at h
  split at h
  · cases h
    exact .refl _
  · obtain ⟨entries, hentries, h⟩ := bind_eq_ok.1 h
    obtain ⟨ordered, hordered, hsorted⟩ := bind_eq_ok.1 h
    cases pure_eq_ok.1 hsorted
    have alike : ∀ a ∈ entries, ∀ b ∈ entries, a.scores.length = b.scores.length := by
      intro a ha b hb
      obtain ⟨_, _, hea⟩ := mem_of_mapM_eq_ok hentries a ha
      obtain ⟨_, _, heb⟩ := mem_of_mapM_eq_ok hentries b hb
      rw [length_scores_sortEntry hea, length_scores_sortEntry heb]
    rw [← map_document hentries]
    exact (sortEntries_perm (RunError.ofSort_eq_ok.1 hordered) alike).map _

/-! ## 2. The rows before the page is cut out -/

/-- Whether the predicate holds of a document. -/
def selects (s : Select) (parameters : Dictionary Json) (document : Json) : Bool :=
  match s.keeps parameters document with
  | .ok keep => keep
  | .error _ => false

theorem filterDocuments_eq_ok {documents kept : List Json}
    (h : s.filterDocuments parameters documents = .ok kept) :
    kept = documents.filter (s.selects parameters) := by
  induction documents generalizing kept with
  | nil => exact (Except.ok.inj h).symm
  | cons document rest ih =>
    obtain ⟨keep, hkeep, h⟩ := bind_eq_ok.1 h
    obtain ⟨restKept, hrest, h⟩ := bind_eq_ok.1 h
    cases pure_eq_ok.1 h
    have here : s.selects parameters document = keep := by rw [selects, hkeep]
    rw [List.filter_cons, here, ih hrest]

/-- The projected values of the selected documents, in the order of the sort. -/
def tuples (s : Select) (parameters : Dictionary Json) (documents : List Json) :
    Except RunError (List (List Json)) := do
  let documents ← s.filterDocuments parameters documents
  let documents ← s.sortDocuments parameters documents
  documents.mapM (s.project parameters)

theorem tuples_eq_ok {rows : List (List Json)} (h : s.tuples parameters documents = .ok rows) :
    ∃ sorted, s.sortDocuments parameters (documents.filter (s.selects parameters)) = .ok sorted ∧
      sorted.mapM (s.project parameters) = .ok rows := by
  obtain ⟨kept, hkept, h⟩ := bind_eq_ok.1 h
  obtain ⟨sorted, hsorted, h⟩ := bind_eq_ok.1 h
  rw [filterDocuments_eq_ok hkept] at hsorted
  exact ⟨sorted, hsorted, h⟩

/-- The rows of all tuples, each once when the select is distinct. -/
def rows (s : Select) (layout : RowLayout) (tuples : List (List Json)) : List Row :=
  (if s.distinct then dropRepeated [] tuples else tuples).map (s.row layout)

/-- The select with the bounds of a page in place of its own. -/
def bounded (s : Select) (offset limit : Option Expr) : Select :=
  { s with offset := offset, limit := limit }

variable (offset limit : Option Expr)

theorem filterDocuments_bounded (documents : List Json) :
    (s.bounded offset limit).filterDocuments parameters documents =
      s.filterDocuments parameters documents := by
  induction documents with
  | nil => rfl
  | cons document rest ih =>
    rw [filterDocuments, filterDocuments, ih]
    rfl

theorem tuples_bounded (documents : List Json) :
    (s.bounded offset limit).tuples parameters documents = s.tuples parameters documents := by
  rw [tuples, tuples, filterDocuments_bounded]
  rfl

/-- The page of a list that starts at `offset` and, with a limit, has at most so many items. -/
def window {α : Type} (offset : Nat) (limit : Option Nat) (items : List α) : List α :=
  match limit with
  | none => items.drop offset
  | some n => (items.drop offset).take n

/-- The bounds cut their window out of the rows of all tuples. -/
theorem run_bounded {o l : Option Nat} (ho : s.bound? parameters "OFFSET" offset = .ok o)
    (hl : s.bound? parameters "LIMIT" limit = .ok l) (layout : RowLayout) (documents : List Json) :
    (s.bounded offset limit).run parameters layout documents =
      (s.tuples parameters documents).map fun t => window (o.getD 0) l (s.rows layout t) := by
  have ho' : (s.bounded offset limit).bound? parameters "OFFSET" (s.bounded offset limit).offset =
    .ok o := ho
  have hl' : (s.bounded offset limit).bound? parameters "LIMIT" (s.bounded offset limit).limit =
    .ok l := hl
  rw [← tuples_bounded offset limit, run, tuples]
  cases (s.bounded offset limit).filterDocuments parameters documents with
  | error e => rfl
  | ok kept =>
    dsimp only [bind, Except.bind]
    cases (s.bounded offset limit).sortDocuments parameters kept with
    | error e => rfl
    | ok sorted =>
      dsimp only
      rw [ho', hl']
      cases sorted.mapM ((s.bounded offset limit).project parameters) with
      | error e => rfl
      | ok tuples => cases l with
        | none =>
          simp only [Except.map, window, rows, List.map_drop]
          rfl
        | some n =>
          simp only [Except.map, window, rows, List.map_drop, List.map_take]
          rfl

end SelectOf

/-! ## 3. Pages -/

/-- A number of rows as a constant bound. -/
def Expr.rowCount (n : Nat) : Expr := .ofScalar (.int64 (Int64.ofNat n)) none

namespace SelectOf

variable {s : Select} {parameters : Dictionary Json}

/-- A constant bound has its value, in the range of its type. -/
theorem bound_rowCount (what : String) {n : Nat} (h : n < 2 ^ 63) :
    s.bound parameters what (.rowCount n) = .ok n := by
  have value : (Int64.ofNat n).toInt = n := Int64.toInt_ofNat_of_lt h
  rw [bound, Expr.rowCount, Expr.ofScalar, Expr.eval, Scalar.toJson, value]
  rfl

theorem run_unbounded (layout : RowLayout) (documents : List Json) :
    (s.bounded none none).run parameters layout documents =
      (s.tuples parameters documents).map (s.rows layout) :=
  run_bounded none none rfl rfl layout documents

/-- Constant bounds cut their window out of the rows without bounds. -/
theorem run_page {offset limit : Nat} (ho : offset < 2 ^ 63) (hl : limit < 2 ^ 63)
    (layout : RowLayout) (documents : List Json) :
    (s.bounded (some (.rowCount offset)) (some (.rowCount limit))).run parameters layout documents =
      ((s.bounded none none).run parameters layout documents).map
        fun rows => (rows.drop offset).take limit := by
  have ho' : s.bound? parameters "OFFSET" (some (.rowCount offset)) = .ok (some offset) := by
    rw [bound?, bound_rowCount _ ho]
    rfl
  have hl' : s.bound? parameters "LIMIT" (some (.rowCount limit)) = .ok (some limit) := by
    rw [bound?, bound_rowCount _ hl]
    rfl
  rw [run_bounded _ _ ho' hl', run_unbounded]
  cases s.tuples parameters documents <;> rfl

end SelectOf

namespace QueryRequest

/-- The request for a page with constant bounds. -/
def page (r : QueryRequest) (offset limit : Nat) : QueryRequest :=
  { r with select := r.select.bounded (some (.rowCount offset)) (some (.rowCount limit)) }

/-- The request for all rows. -/
def unpaged (r : QueryRequest) : QueryRequest := { r with select := r.select.bounded none none }

end QueryRequest

namespace Store

/-- **A page is a window of all rows**, and fails as the request for all rows does. -/
theorem execute_page (s : Store) (r : QueryRequest) {offset limit : Nat} (ho : offset < 2 ^ 63)
    (hl : limit < 2 ^ 63) :
    s.execute (r.page offset limit) =
      (s.execute r.unpaged).map fun rows => (rows.drop offset).take limit :=
  SelectOf.run_page ho hl ..

/-- The rows of two pages, one after the other. -/
def bothPages (s : Store) (first second : QueryRequest) : Except RunError (List Row) := do
  let rows ← s.execute first
  return rows ++ (← s.execute second)

/-- Reads pages of these sizes, one after the other, until one is empty.  Without a result no page
was. -/
def readPages (s : Store) (r : QueryRequest) (offset : Nat) :
    List Nat → Except RunError (Option (List Row))
  | [] => .ok none
  | size :: sizes => do
    let rows ← s.execute (r.page offset size)
    if rows.isEmpty then return some []
    return (← s.readPages r (offset + size) sizes).map (rows ++ ·)

/-- Consecutive pages join. -/
theorem execute_page_append (s : Store) (r : QueryRequest) {a b c : Nat} (hab : a + b < 2 ^ 63)
    (hbc : b + c < 2 ^ 63) :
    s.bothPages (r.page a b) (r.page (a + b) c) = s.execute (r.page a (b + c)) := by
  rw [bothPages, execute_page s r (by omega) (by omega), execute_page s r hab (by omega),
    execute_page s r (by omega) hbc]
  cases s.execute r.unpaged with
  | error e => rfl
  | ok rows =>
    refine congrArg Except.ok ?_
    show (rows.drop a).take b ++ (rows.drop (a + b)).take c = (rows.drop a).take (b + c)
    rw [List.take_add, List.drop_drop]

/-- A page that may have rows is empty behind the end only. -/
theorem isEmpty_page {rows : List Row} {offset size : Nat} (h : 0 < size) :
    ((rows.drop offset).take size).isEmpty = decide (rows.length ≤ offset) := by
  rw [Bool.eq_iff_iff, List.isEmpty_iff, decide_eq_true_iff, List.take_eq_nil_iff,
    List.drop_eq_nil_iff]
  exact or_iff_right (Nat.ne_of_gt h)

/-- Reading from an offset fails as the request for all rows does, gives the rows from the offset on
when the pages but the last reach to the end, and does not come to an end otherwise. -/
theorem readPages_eq (s : Store) (r : QueryRequest) {offset : Nat} {sizes : List Nat}
    (nonempty : sizes ≠ []) (positive : ∀ n ∈ sizes, 0 < n)
    (range : offset + sizes.sum < 2 ^ 63) :
    s.readPages r offset sizes = (s.execute r.unpaged).map fun rows =>
      if rows.length ≤ offset + sizes.dropLast.sum then some (rows.drop offset) else none := by
  induction sizes generalizing offset with
  | nil => exact absurd rfl nonempty
  | cons size sizes ih =>
    have pos := positive size List.mem_cons_self
    rw [List.sum_cons] at range
    rw [readPages, execute_page s r (by omega) (by omega)]
    cases hrows : s.execute r.unpaged with
    | error e => rfl
    | ok rows =>
      simp only [Except.map, bind, Except.bind, isEmpty_page pos, decide_eq_true_eq]
      by_cases ended : rows.length ≤ offset
      · rw [if_pos ended, if_pos (by omega), List.drop_eq_nil_of_le ended]
        rfl
      · rw [if_neg ended]
        cases sizes with
        | nil =>
          rw [readPages, if_neg (by simpa using ended)]
          rfl
        | cons next sizes =>
          have later : s.readPages r (offset + size) (next :: sizes) = .ok
              (if rows.length ≤ offset + size + (next :: sizes).dropLast.sum
                then some (rows.drop (offset + size)) else none) := by
            rw [ih (List.cons_ne_nil next sizes)
              (fun n hn => positive n (List.mem_cons_of_mem _ hn)) (by omega), hrows]
            rfl
          rw [later, List.dropLast_cons_cons, List.sum_cons, ← Nat.add_assoc]
          dsimp only
          split
          · rw [Option.map_some, ← List.drop_drop, List.take_append_drop]
            rfl
          · rfl

/-- The documents in scope of which the predicate holds. -/
def matching (s : Store) (r : QueryRequest) : List Json :=
  (s.scope r.container r.partitionKey).filter (r.select.selects r.command.bindings)

/-- The rows without bounds are those of the matching documents in the order of the sort. -/
theorem execute_unpaged {s : Store} {r : QueryRequest} {rows : List Row}
    (h : s.execute r.unpaged = .ok rows) :
    ∃ sorted tuples,
      r.select.sortDocuments r.command.bindings (s.matching r) = .ok sorted ∧
      sorted.mapM (r.select.project r.command.bindings) = .ok tuples ∧
      rows = r.select.rows r.layout tuples := by
  rw [execute] at h
  have h : ((r.select.bounded none none).run r.command.bindings r.layout
    (s.scope r.container r.partitionKey)) = .ok rows := h
  rw [SelectOf.run_unbounded] at h
  obtain ⟨tuples, htuples, hrows⟩ := map_eq_ok.1 h
  obtain ⟨sorted, hsorted, hproject⟩ := SelectOf.tuples_eq_ok htuples
  exact ⟨sorted, tuples, hsorted, hproject, hrows.symm⟩

/-- **Paging neither loses nor repeats rows.**  Two consecutive pages are one page; reading pages
until one is empty gives all rows, or fails as the request for all rows does.  Without `DISTINCT`
there is one row for each matching document.  With it and rows as lists no two rows are equal, the
values of each matching document occur, and each stands behind the different ones that come before
its first occurrence. -/
theorem pages_cover (s : Store) (r : QueryRequest) :
    (∀ a b c, a + b < 2 ^ 63 → b + c < 2 ^ 63 →
      s.bothPages (r.page a b) (r.page (a + b) c) = s.execute (r.page a (b + c))) ∧
    (∀ sizes, sizes ≠ [] → (∀ n ∈ sizes, 0 < n) → sizes.sum < 2 ^ 63 →
      s.readPages r 0 sizes = (s.execute r.unpaged).map fun rows =>
        if rows.length ≤ sizes.dropLast.sum then some rows else none) ∧
    ∀ rows, s.execute r.unpaged = .ok rows → ∃ sorted tuples,
      r.select.sortDocuments r.command.bindings (s.matching r) = .ok sorted ∧
      sorted.Perm (s.matching r) ∧
      sorted.mapM (r.select.project r.command.bindings) = .ok tuples ∧
      (r.select.distinct = false → rows = tuples.map (r.select.row r.layout)) ∧
      (r.select.distinct = true → r.layout = .ordinal → ∃ kept : List (List Json),
        rows = kept.map .ordinal ∧ kept.Sublist tuples ∧
        kept.Pairwise (fun a b => Json.sameItems a b = false) ∧
        (∀ t ∈ tuples, ∃ k ∈ kept, Json.sameItems k t = true) ∧
        ∀ (i : Nat) (t : List Json), tuples[i]? = some t → isRepeated (tuples.take i) t = false →
          kept[(firstOccurrences (tuples.take i)).length]? = some t) := by
  refine ⟨fun a b c hab hbc => execute_page_append s r hab hbc, ?_, ?_⟩
  · intro sizes nonempty positive range
    rw [readPages_eq s r nonempty positive (by omega), Nat.zero_add]
    rfl
  · intro rows h
    obtain ⟨sorted, tuples, hsorted, hproject, rfl⟩ := execute_unpaged h
    refine ⟨sorted, tuples, hsorted, SelectOf.sortDocuments_perm hsorted, hproject, ?_, ?_⟩
    · intro plain
      rw [SelectOf.rows, plain, if_neg Bool.false_ne_true]
    · intro distinct ordinal
      refine ⟨firstOccurrences tuples, ?_, firstOccurrences_sublist tuples,
        pairwise_firstOccurrences tuples, fun t => exists_firstOccurrence,
        fun i t => getElem?_firstOccurrences⟩
      rw [SelectOf.rows, distinct, if_pos rfl, dropRepeated_eq, ordinal]
      rfl

end Store

/-- The tags of the posts but `c`, each once, the tag of the post of the lowest id first. -/
def tagRequest : QueryRequest where
  container := "posts"
  partitionKey := none
  layout := .ordinal
  command := ⟨"", []⟩
  select :=
    { taggedPosts with
      projection := [⟨.scalar (.column "c" ["tag"] .utf8 none), "tag"⟩]
      predicate := some (.binary .notEqual (.column "c" ["tag"] .utf8 none)
        (.ofScalar (.text "c") none) none)
      distinct := true }

/-- Three posts match, with two tags.  Two pages of one row join, and three read everything. -/
theorem Store.pages_cover_tagRequest :
    postStore.bothPages (tagRequest.page 0 1) (tagRequest.page 1 1) =
      postStore.execute (tagRequest.page 0 2) ∧
    postStore.readPages tagRequest 0 [1, 1, 1] =
      .ok (some [.ordinal [.string "b"], .ordinal [.string "a"]]) ∧
    ∃ tuples kept : List (List Json), tuples.length = (postStore.matching tagRequest).length ∧
      kept.map Row.ordinal = [.ordinal [.string "b"], .ordinal [.string "a"]] ∧
      kept.Pairwise (fun a b => Json.sameItems a b = false) ∧
      ∀ t ∈ tuples, ∃ k ∈ kept, Json.sameItems k t = true := by
  have all : postStore.execute tagRequest.unpaged =
    .ok [.ordinal [.string "b"], .ordinal [.string "a"]] := rfl
  obtain ⟨join, read, cover⟩ := pages_cover postStore tagRequest
  refine ⟨join 0 1 1 (by decide) (by decide), ?_, ?_⟩
  · rw [read [1, 1, 1] (by decide) (by decide) (by decide), all]
    rfl
  · obtain ⟨sorted, tuples, -, perm, project, -, distinct⟩ := cover _ all
    obtain ⟨kept, rows, -, different, found, -⟩ := distinct rfl rfl
    exact ⟨tuples, kept, (length_of_mapM project).trans perm.length_eq, rows.symm, different, found⟩

end DocQuery
