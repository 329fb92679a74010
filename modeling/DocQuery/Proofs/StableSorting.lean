/-
# The order of plain selects

On documents on which all its orderings evaluate a select sorts without a failure of its own, and
the sorted documents are the given ones in another order, whether or not the select ranks.  There
is one exception: the sort may find that what it compares is not ordered, and then nothing is
sorted at all.  `SelectOf.sortDocuments_stable` says when that is and what the order is otherwise.

* **When there is an order.**  Up to 20 documents are always sorted.  More of them are, if the
  values of the orderings that are compared do so transitively (`SelectOf.TransitiveBy`), which is
  the case exactly when none of them slip (`SelectOf.transitiveBy_iff`).  Which orderings are
  compared depends on how the select sorts: of a ranked select with one score that score is
  compared as a double, so its values are no concern (`comparedOrderings`).
* **What the order is.**  A select that does not rank puts its documents in the lexicographic
  order of its orderings, each in its direction, and keeps the stored order of those that all
  orderings leave equal (`Keyed.exists_plainOrder`).  A direction reverses the comparison and not
  the sort, so this holds of descending orderings as well.
* **When there is none.**  `SelectOf.sortDocuments_not_complete` has 21 documents, among whose
  tags are two integers and the double of both, and an ordering by tag that evaluates on each.
  The sort fails, and no document is returned.
-/
import DocQuery.Proofs.ComparisonOutcomes
import DocQuery.Proofs.RankedOrder

namespace DocQuery

/-! ## 1. Sorted entries -/

/-- The entry at `i` goes in front of that at `j`: the first orderings that tell them apart say so,
or none does and it was stored earlier. -/
def GoesBefore (a b : SortEntry) (i j : ℕ) : Prop :=
  ComesFirst a.keys b.keys ∨ SameValues a.keys b.keys ∧ i < j

section

variable {orderings : List (OrderingTerm Expr)} {V : OrderingTerm Expr → Json → Prop}
  {entries sorted : List SortEntry}

theorem goesBefore_of_precedes {a b : SortEntry} {i j : ℕ}
    (alike : a.keys.map Prod.fst = b.keys.map Prod.fst)
    (h : Precedes (fun a b : SortEntry => compareKeys a.keys b.keys) (a, i) (b, j)) :
    GoesBefore a b i j := by
  rcases h with less | ⟨equal, earlier⟩
  · exact .inl ((compareKeys_eq_lt_iff alike).1 less)
  · exact .inr ⟨(compareKeys_eq_eq_iff alike).1 equal, earlier⟩

/-- The orderings whose values a sort compares.  The only score by which rows are ranked is compared
as a double. -/
def comparedOrderings (ranked : Bool) (orderings : List (OrderingTerm Expr)) :
    List (OrderingTerm Expr) :=
  if ranked ∧ (orderings.filter (·.expr.isScoring)).length = 1 then
    orderings.filter (!·.expr.isScoring)
  else orderings

theorem exists_foldlM_addShares {lists : List (List (OrderingTerm Expr × Json))} {columns : List ℕ}
    (h : ∀ c ∈ columns, ∃ shares, reciprocalRanks (lists.filterMap fun s => s[c]?) = some shares) :
    ∀ sums : List Double, ∃ scores, columns.foldlM (addShares lists) sums = some scores := by
  induction columns with
  | nil => exact fun sums => ⟨sums, rfl⟩
  | cons c columns ih =>
    intro sums
    obtain ⟨shares, hshares⟩ := h c List.mem_cons_self
    obtain ⟨scores, hscores⟩ := ih (fun d hd => h d (List.mem_cons_of_mem c hd))
      (sums.zipWith Double.add shares)
    refine ⟨scores, List.foldlM_cons.trans (Option.bind_eq_some_iff.2 ⟨_, ?_, hscores⟩)⟩
    rw [addShares, hshares]
    rfl

namespace Keyed

/-- Entries are ordered when the values of each ordering are. -/
theorem preorders_keys (keyed : Keyed orderings V entries)
    (ordered : ∀ o ∈ orderings, Preorders Json.compare (V o)) :
    Preorders (fun a b : SortEntry => compareKeys a.keys b.keys) (· ∈ entries) :=
  ((preorders_compareKeys ordered).comap (f := SortEntry.keys)).mono fun e he =>
    ⟨keyed.orderings e he, keyed.values e he⟩

/-- **The order of plain entries.** -/
theorem exists_plainOrder (keyed : Keyed orderings V entries)
    (ordered : ∀ o ∈ orderings, Preorders Json.compare (V o))
    (hsorted : sortEntries false entries = some sorted) :
    ∃ order : List ℕ, order.Perm (List.range entries.length) ∧
      sorted.map some = order.map (fun i => entries[i]?) ∧
      order.Pairwise fun i j => ∃ a b, entries[i]? = some a ∧ entries[j]? = some b ∧
        GoesBefore a b i j := by
  obtain ⟨order, horder, positions⟩ := sortBy_eq_some.1 hsorted
  have perm := sortedPositions_perm horder
  have found : ∀ i ∈ order, ∃ e ∈ entries, entries[i]? = some e := by
    intro i hi
    have inRange : i < entries.length := List.mem_range.1 (perm.mem_iff.1 hi)
    exact ⟨entries[i], List.getElem_mem inRange, List.getElem?_eq_getElem inRange⟩
  refine ⟨order, perm, positions, ?_⟩
  refine (pairwise_sortedPositions (keyed.preorders_keys ordered) horder).imp_of_mem ?_
  intro i j hi hj precedes
  obtain ⟨a, memA, ha⟩ := found i hi
  obtain ⟨b, memB, hb⟩ := found j hj
  have alike := (keyed.orderings a memA).trans (keyed.orderings b memB).symm
  exact ⟨a, b, ha, hb, goesBefore_of_precedes alike (precedes a b ha hb)⟩

/-- Entries have fused scores, if there is one scoring ordering, or there are few entries, or the
values of the scoring orderings are ordered. -/
theorem exists_fusedScores (keyed : Keyed orderings V entries)
    (sortable : (orderings.filter (·.expr.isScoring)).length ≠ 1 →
      (∀ o ∈ orderings, Preorders Json.compare (V o)) ∨ entries.length ≤ 20) :
    ∃ scores, fusedScores entries = some scores := by
  have lengths : ∀ e ∈ entries, e.scores.length = (orderings.filter (·.expr.isScoring)).length :=
    fun e he => length_scores (keyed.orderings e he)
  by_cases one : (orderings.filter (·.expr.isScoring)).length = 1
  · exact ⟨_, fusedScores_of_one fun e he => (lengths e he).trans one⟩
  by_cases nonempty : entries = []
  · exact ⟨[], by rw [nonempty]; rfl⟩
  rw [fusedScores_of_many one nonempty lengths]
  refine exists_foldlM_addShares (fun c hc => ?_) _
  have inRange := List.mem_range.1 hc
  have full : (scoreColumn entries c).length = entries.length := by
    rw [scoreColumn, length_column, List.length_map]
    intro scores hscores
    obtain ⟨e, he, rfl⟩ := List.mem_map.1 hscores
    rwa [lengths e he]
  obtain ⟨order, horder⟩ : ∃ order,
      sortedPositions 8 directedKey (scoreColumn entries c) = some order :=
    exists_sortedPositions 8
      ((sortable one).imp (preorders_scoreColumn keyed · inRange) (full ▸ ·))
  exact ⟨_, Option.map_eq_some_iff.2 ⟨order, horder, rfl⟩⟩

/-- **Entries are sorted**, if there are few or their values are ordered. -/
theorem exists_sortEntries (keyed : Keyed orderings V entries) (ranked : Bool)
    (sortable : (∀ o ∈ comparedOrderings ranked orderings, Preorders Json.compare (V o)) ∨
      entries.length ≤ 20) :
    ∃ sorted, sortEntries ranked entries = some sorted := by
  cases ranked with
  | false => exact exists_sortBy 56 (sortable.imp_left keyed.preorders_keys)
  | true =>
    obtain ⟨scores, hscores⟩ := keyed.exists_fusedScores fun several =>
      sortable.imp_left fun ordered => by rwa [comparedOrderings, if_neg (by simp [several])] at ordered
    have plain : (∀ o ∈ comparedOrderings true orderings, Preorders Json.compare (V o)) →
        ∀ o ∈ orderings, o.expr.isScoring = false → Preorders Json.compare (V o) := by
      intro ordered o ho plain
      refine ordered o ?_
      rw [comparedOrderings]
      split
      · exact List.mem_filter.2 ⟨ho, by rw [plain]; rfl⟩
      · exact ho
    have few : entries.length ≤ 20 → (entries.zip scores).length ≤ 20 := fun few => by
      rw [List.length_zip]
      omega
    obtain ⟨pairs, hpairs⟩ : ∃ pairs, sortBy 8 compareRanked (entries.zip scores) = some pairs :=
      exists_sortBy 8
        (sortable.imp (fun ordered => keyed.preorders_compareRanked hscores (plain ordered)) few)
    exact ⟨_, Option.bind_eq_some_iff.2 ⟨scores, hscores,
      Option.bind_eq_some_iff.2 ⟨pairs, hpairs, rfl⟩⟩⟩

end Keyed

/-- Entries without keys stay as they are stored. -/
theorem pairwise_goesBefore_nil (h : ∀ e ∈ entries, e.keys = []) :
    (List.range entries.length).Pairwise fun i j => ∃ a b, entries[i]? = some a ∧
      entries[j]? = some b ∧ GoesBefore a b i j := by
  refine List.pairwise_lt_range.imp_of_mem fun {i j} hi hj earlier => ?_
  have left := List.mem_range.1 hi
  have right := List.mem_range.1 hj
  refine ⟨entries[i], entries[j], List.getElem?_eq_getElem left, List.getElem?_eq_getElem right,
    .inr ⟨?_, earlier⟩⟩
  rw [h _ (List.getElem_mem left), h _ (List.getElem_mem right)]
  exact .nil

end

/-! ## 2. Sorted documents -/

namespace SelectOf

variable {s : Select} {parameters : Dictionary Json} {documents : List Json}
  {entries : List SortEntry}

/-- The values of an ordering for documents compare transitively. -/
def TransitiveBy (s : Select) (parameters : Dictionary Json) (documents : List Json)
    (o : OrderingTerm Expr) : Prop :=
  ∀ u v w, s.orderingValues parameters documents o u → s.orderingValues parameters documents o v →
    s.orderingValues parameters documents o w →
    (u.compare v).isLE → (v.compare w).isLE → (u.compare w).isLE

theorem TransitiveBy.preorders {o : OrderingTerm Expr} (h : s.TransitiveBy parameters documents o) :
    Preorders Json.compare (s.orderingValues parameters documents o) :=
  .of_forall (fun _ _ => Json.compare_swap ..) fun hu hv hw => h _ _ _ hu hv hw

/-- The values of an ordering compare transitively exactly when none of them slip. -/
theorem transitiveBy_iff {o : OrderingTerm Expr} :
    s.TransitiveBy parameters documents o ↔ s.SteadyBy parameters documents o := by
  rw [← preorders_orderingValues]
  exact ⟨TransitiveBy.preorders, fun ordered _ _ _ hu hv hw => ordered.isLE_trans hu hv hw⟩

theorem exists_sortEntry {document : Json}
    (h : ∀ o ∈ s.orderings, ∃ v, o.expr.eval (s.environment parameters document) = .ok v) :
    ∃ entry, s.sortEntry parameters document = .ok entry := by
  obtain ⟨keys, hkeys⟩ : ∃ keys, s.orderings.mapM (fun o => do
      return (o, ← o.expr.eval (s.environment parameters document))) = Except.ok keys := by
    refine exists_mapM fun o ho => ?_
    obtain ⟨v, hv⟩ := h o ho
    exact ⟨(o, v), bind_eq_ok.2 ⟨v, hv, rfl⟩⟩
  exact ⟨⟨keys, document⟩, bind_eq_ok.2 ⟨keys, hkeys, rfl⟩⟩

/-- Documents are sorted, if there are few or the values that the sort compares are ordered. -/
theorem exists_sortDocuments (hentries : documents.mapM (s.sortEntry parameters) = .ok entries)
    (sortable : (∀ o ∈ comparedOrderings s.isScoreOrdered s.orderings,
      s.TransitiveBy parameters documents o) ∨ documents.length ≤ 20) :
    ∃ sorted, s.sortDocuments parameters documents = .ok sorted := by
  rw [sortDocuments]
  split
  · exact ⟨documents, rfl⟩
  · have lengths : entries.length = documents.length := length_of_mapM hentries
    obtain ⟨sorted, hsorted⟩ := (keyed_entries hentries).exists_sortEntries s.isScoreOrdered
      (sortable.imp (fun transitive o ho => (transitive o ho).preorders) (lengths ▸ ·))
    exact ⟨_, bind_eq_ok.2 ⟨entries, hentries, bind_eq_ok.2
      ⟨sorted, RunError.ofSort_eq_ok.2 hsorted, rfl⟩⟩⟩

/-- A plain sort puts documents in the order of their entries. -/
theorem exists_order_sortDocuments {sorted : List Json} (plain : s.isScoreOrdered = false)
    (transitive : ∀ o ∈ s.orderings, s.TransitiveBy parameters documents o)
    (hentries : documents.mapM (s.sortEntry parameters) = .ok entries)
    (hsorted : s.sortDocuments parameters documents = .ok sorted) :
    ∃ order : List ℕ, order.Perm (List.range documents.length) ∧
      sorted.map some = order.map (fun i => documents[i]?) ∧
      order.Pairwise fun i j => ∃ a b, entries[i]? = some a ∧ entries[j]? = some b ∧
        GoesBefore a b i j := by
  have keyed := keyed_entries hentries
  have bodies := map_document hentries
  have lengths : entries.length = documents.length := length_of_mapM hentries
  rw [sortDocuments] at hsorted
  split at hsorted
  · next empty =>
    cases hsorted
    rw [List.isEmpty_iff] at empty
    have unkeyed : ∀ e ∈ entries, e.keys = [] := by
      intro e he
      have orderings := keyed.orderings e he
      rwa [empty, List.map_eq_nil_iff] at orderings
    exact ⟨List.range documents.length, .refl _, (map_getElem?_range documents).symm,
      lengths ▸ pairwise_goesBefore_nil unkeyed⟩
  · obtain ⟨entries', hentries', hsorted⟩ := bind_eq_ok.1 hsorted
    cases hentries.symm.trans hentries'
    obtain ⟨ordered, hordered, hsorted⟩ := bind_eq_ok.1 hsorted
    cases pure_eq_ok.1 hsorted
    rw [RunError.ofSort_eq_ok, plain] at hordered
    obtain ⟨order, perm, positions, pairwise⟩ :=
      keyed.exists_plainOrder (fun o ho => (transitive o ho).preorders) hordered
    refine ⟨order, lengths ▸ perm, ?_, pairwise⟩
    have documents' := congrArg (List.map (Option.map SortEntry.document)) positions
    rw [List.map_map, List.map_map] at documents'
    rw [← bodies, List.map_map]
    simp only [List.getElem?_map]
    exact documents'

/-- Sorting documents fails only as their orderings do, or because their comparison is no order. -/
theorem sortDocuments_eq_error {e : RunError}
    (hentries : documents.mapM (s.sortEntry parameters) = .ok entries)
    (h : s.sortDocuments parameters documents = .error e) : e = .unordered := by
  rw [sortDocuments, hentries] at h
  split at h
  · cases h
  · change (RunError.ofSort (sortEntries s.isScoreOrdered entries) >>= _) = _ at h
    cases hsorted : sortEntries s.isScoreOrdered entries with
    | none =>
      rw [hsorted] at h
      exact (Except.error.inj h).symm
    | some ordered =>
      rw [hsorted] at h
      cases h

/-- **Sorting is complete and stable.**  Documents on which all orderings evaluate are sorted, each
of them once, or the sort finds that their comparison is no order.  It always sorts 20 documents or
fewer, and it sorts any number of documents by values that compare transitively.  Where the values
of each ordering do and the select does not rank, the documents then stand in the lexicographic
order of the orderings, each in its direction, and those of equal values as they were stored. -/
theorem sortDocuments_stable (s : Select) (parameters : Dictionary Json) (documents : List Json)
    (evaluates : ∀ d ∈ documents, ∀ o ∈ s.orderings,
      ∃ v, o.expr.eval (s.environment parameters d) = .ok v) :
    ∃ entries, documents.mapM (s.sortEntry parameters) = .ok entries ∧
      ((∃ sorted, s.sortDocuments parameters documents = .ok sorted ∧ sorted.Perm documents) ∨
        s.sortDocuments parameters documents = .error .unordered ∧ 20 < documents.length ∧
          ∃ o ∈ comparedOrderings s.isScoreOrdered s.orderings,
            ¬ s.TransitiveBy parameters documents o) ∧
      (s.isScoreOrdered = false →
        (∀ o ∈ s.orderings, s.TransitiveBy parameters documents o) →
        ∃ (sorted : List Json) (order : List ℕ), s.sortDocuments parameters documents = .ok sorted ∧
          order.Perm (List.range documents.length) ∧
          sorted.map some = order.map (fun i => documents[i]?) ∧
          order.Pairwise fun i j => ∃ a b, entries[i]? = some a ∧ entries[j]? = some b ∧
            GoesBefore a b i j) := by
  obtain ⟨entries, hentries⟩ := exists_mapM fun d hd => exists_sortEntry (evaluates d hd)
  refine ⟨entries, hentries, ?_, fun plain transitive => ?_⟩
  · cases hsorted : s.sortDocuments parameters documents with
    | ok sorted => exact .inl ⟨sorted, rfl, sortDocuments_perm hsorted⟩
    | error e =>
      have fails : ¬ ∃ sorted, s.sortDocuments parameters documents = .ok sorted := by
        rw [hsorted]
        exact nofun
      have unsortable := mt (exists_sortDocuments hentries) fails
      rw [not_or, not_le] at unsortable
      obtain ⟨o, slips⟩ := not_forall.1 unsortable.1
      obtain ⟨ho, slips⟩ := Classical.not_imp.1 slips
      exact .inr ⟨sortDocuments_eq_error hentries hsorted ▸ rfl, unsortable.2, o, ho, slips⟩
  · obtain ⟨sorted, hsorted⟩ := exists_sortDocuments hentries (.inl (by
      rw [plain]
      exact transitive))
    obtain ⟨order, h⟩ := exists_order_sortDocuments plain transitive hentries hsorted
    exact ⟨sorted, order, hsorted, h⟩

/-- All posts, ordered by their tags. -/
def postsByTag (ascending : Bool) : Select :=
  { taggedPosts with
    predicate := none
    orderings := [⟨.column "c" ["tag"] .utf8 none, ascending⟩]
    limit := none }

theorem eval_postsByTag (ascending : Bool) (d : Json) :
    ∀ o ∈ (postsByTag ascending).orderings,
      o.expr.eval ((postsByTag ascending).environment .empty d) = .ok (d.readPath ["tag"]) := by
  intro o ho
  cases List.mem_singleton.1 ho
  rfl

theorem scope_postStore : postStore.scope "posts" none =
    [.object [("id", .ofInt 4), ("tag", .string "b")],
      .object [("id", .ofInt 3), ("tag", .string "a")],
      .object [("id", .ofInt 1), ("tag", .string "c")],
      .object [("id", .ofInt 2), ("tag", .string "b")]] := rfl

/-- The last tags come first.  The posts 4 and 2 have the same tag and stay in their order, although
the ordering is descending. -/
theorem sortDocuments_stable_postsByTag :
    ∃ (entries : List SortEntry) (sorted : List Json) (order : List ℕ),
      (postStore.scope "posts" none).mapM ((postsByTag false).sortEntry .empty) = .ok entries ∧
      (postsByTag false).sortDocuments .empty (postStore.scope "posts" none) = .ok sorted ∧
      sorted.map (fun d => (d.readPath ["id"]).asInt64?) = [some 1, some 4, some 2, some 3] ∧
      order.Perm (List.range 4) ∧
      sorted.map some = order.map (fun i => (postStore.scope "posts" none)[i]?) ∧
      order.Pairwise fun i j => ∃ a b, entries[i]? = some a ∧ entries[j]? = some b ∧
        GoesBefore a b i j := by
  obtain ⟨entries, hentries, -, plain⟩ :=
    sortDocuments_stable (postsByTag false) .empty (postStore.scope "posts" none)
      fun d _ o ho => ⟨_, eval_postsByTag false d o ho⟩
  have texts : ∀ d ∈ postStore.scope "posts" none, ∃ tag, d.readPath ["tag"] = .string tag := by
    intro d hd
    rw [scope_postStore] at hd
    simp only [List.mem_cons, List.not_mem_nil, or_false] at hd
    rcases hd with rfl | rfl | rfl | rfl <;> exact ⟨_, rfl⟩
  -- texts do not slip
  have transitive : ∀ o ∈ (postsByTag false).orderings,
      (postsByTag false).TransitiveBy .empty (postStore.scope "posts" none) o := by
    intro o ho
    rw [transitiveBy_iff]
    rintro _ _ _ ⟨v, ⟨d, hd, hv⟩, hm⟩ - - ⟨-, -, -, -, -⟩
    obtain ⟨tag, htag⟩ := texts d hd
    rw [eval_postsByTag false d o ho, htag] at hv
    cases hv
    cases hm
  obtain ⟨sorted, order, hsorted, perm, positions, pairwise⟩ := plain rfl transitive
  have outcome : ((postsByTag false).sortDocuments .empty
      (postStore.scope "posts" none)).toOption.map
        (List.map fun d => (d.readPath ["id"]).asInt64?) =
          some [some 1, some 4, some 2, some 3] := by
    decide +kernel
  rw [hsorted] at outcome
  exact ⟨entries, sorted, order, hentries, hsorted, Option.some.inj outcome, perm, positions,
    pairwise⟩

/-- Tags among which the integers `2^53 + 1` and `2^53` are told apart, and the double `2^53` from
neither. -/
def slippingTags : List Json :=
  [.ofInt 5, .ofInt 1] ++ List.replicate 8 (.ofInt 9007199254740993) ++
    .ofDouble (.ofInt 9007199254740992) :: List.replicate 10 (.ofInt 9007199254740992)

def slippingPosts : List Json :=
  slippingTags.mapIdx fun i tag => .object [("id", .ofInt (i + 1)), ("tag", tag)]

/-- Not all documents are sorted on which the orderings evaluate.  The first half of these ends with
`2^53 + 1`, and the second begins with the double and ends with `2^53`: from the front the first
half goes before the double, and from the back it goes behind the integers. -/
theorem sortDocuments_not_complete :
    ¬ ∀ (s : Select) (parameters : Dictionary Json) (documents : List Json),
      (∀ d ∈ documents, ∀ o ∈ s.orderings,
        ∃ v, o.expr.eval (s.environment parameters d) = .ok v) →
      ∃ sorted, s.sortDocuments parameters documents = .ok sorted ∧ sorted.Perm documents := by
  intro complete
  obtain ⟨sorted, hsorted, -⟩ := complete (postsByTag true) .empty slippingPosts
    fun d _ o ho => ⟨_, eval_postsByTag true d o ho⟩
  have outcome : ((postsByTag true).sortDocuments .empty slippingPosts).toOption.isNone := by
    decide +kernel
  rw [hsorted] at outcome
  cases outcome

end SelectOf

end DocQuery
