/-
# The order of ranked selects

A select whose first ordering is a scoring function ranks its rows: the documents are sorted by a
ranking score, and the plain orderings decide between documents of equal score (`RanksBefore`,
`Store.execute_ranked`).

* **One scoring ordering.**  The ranking score is the value itself, as a double, so documents of
  equal values tie, and the plain orderings decide.
* **Several.**  The score is a sum of shares, one for each scoring ordering, and a share goes by
  the POSITION in a stable sort.  There documents of equal values have different positions, the
  one that was stored first the smaller; since shares fall with the position (`share_antitone`)
  and sums come in the order of their summands, it never has the smaller sum
  (`falls_fusedScores`).  So these documents do not tie in general, and are ranked as they were
  stored whatever the plain orderings say (`Store.ranks_equal_values_apart`).

The sums are sums of doubles, and rounding is why the order of the shares has to be carried
through them: nothing but monotony is left of their exact values (`Proofs/Rounding.lean`).

A sort orders what its comparison orders, so the values of an ordering are assumed not to slip
(`SelectOf.SteadyBy`): those of the plain orderings throughout, and those of the scoring orderings
where their stable sorts matter.
-/
import DocQuery.Proofs.Paging
import DocQuery.Proofs.ScalarOrder

namespace DocQuery

/-! ## 1. Plain orderings -/

/-- The values of the same orderings for two documents are equal. -/
def SameValues (as bs : List (OrderingTerm Expr × Json)) : Prop :=
  List.Forall₂ (fun k l => k.2.compare l.2 = .eq) as bs

theorem SameValues.symm {as bs : List (OrderingTerm Expr × Json)} (h : SameValues as bs) :
    SameValues bs as :=
  h.flip.imp fun k l equal => by
    rw [Json.compare] at equal ⊢
    rw [Scalar.compare_swap, equal]
    rfl

/-- Of the values of the same orderings for two documents, the first that differ put the first
document in front, in the direction of their ordering. -/
def ComesFirst (as bs : List (OrderingTerm Expr × Json)) : Prop :=
  ∃ equal equal' o v w rest rest', as = equal ++ (o, v) :: rest ∧ bs = equal' ++ (o, w) :: rest' ∧
    SameValues equal equal' ∧ v.compare w = if o.ascending then .lt else .gt

theorem directed_eq_eq {ascending : Bool} {o : Ordering} : directed ascending o = .eq ↔ o = .eq := by
  cases ascending <;> cases o <;> decide

theorem directed_eq_lt {ascending : Bool} {o : Ordering} :
    directed ascending o = .lt ↔ o = if ascending then .lt else .gt := by
  cases ascending <;> cases o <;> decide

theorem compareKeys_eq_eq_iff : ∀ {as bs : List (OrderingTerm Expr × Json)},
    as.map Prod.fst = bs.map Prod.fst → (compareKeys as bs = .eq ↔ SameValues as bs)
  | [], [], _ => iff_of_true rfl .nil
  | (o, v) :: as, (_, w) :: bs, alike => by
    rw [List.map_cons, List.map_cons, List.cons_eq_cons] at alike
    rw [compareKeys, Ordering.then_eq_eq, directed_eq_eq, compareKeys_eq_eq_iff alike.2]
    constructor
    · exact fun h => .cons h.1 h.2
    · rintro (_ | ⟨same, rest⟩)
      exact ⟨same, rest⟩

theorem compareKeys_eq_lt_iff : ∀ {as bs : List (OrderingTerm Expr × Json)},
    as.map Prod.fst = bs.map Prod.fst → (compareKeys as bs = .lt ↔ ComesFirst as bs)
  | [], [], _ => by
    refine iff_of_false nofun ?_
    rintro ⟨equal, _, o, v, _, rest, _, empty, -⟩
    exact List.append_ne_nil_of_right_ne_nil equal (List.cons_ne_nil (o, v) rest) empty.symm
  | (o, v) :: as, (_, w) :: bs, alike => by
    rw [List.map_cons, List.map_cons, List.cons_eq_cons] at alike
    obtain ⟨rfl, alike⟩ := alike
    rw [compareKeys, Ordering.then_eq_lt, directed_eq_lt, directed_eq_eq,
      compareKeys_eq_lt_iff alike]
    constructor
    · rintro (decided | ⟨same, equal, equal', o, v, w, rest, rest', rfl, rfl, agree, decided⟩)
      · exact ⟨[], [], o, v, w, as, bs, rfl, rfl, .nil, decided⟩
      · exact ⟨_ :: equal, _ :: equal', o, v, w, rest, rest', rfl, rfl, .cons same agree, decided⟩
    · rintro ⟨equal, equal', o', v', w', rest, rest', left, right, agree, decided⟩
      cases agree with
      | nil =>
        cases left
        cases right
        exact .inl decided
      | cons same agree =>
        cases left
        cases right
        exact .inr ⟨same, _, _, o', v', w', rest, rest', rfl, rfl, agree, decided⟩

theorem compareKeys_eq_compareLists : ∀ {as bs : List (OrderingTerm Expr × Json)},
    as.length = bs.length → compareKeys as bs = Scalar.compareLists directedKey as bs
  | [], [], _ => rfl
  | (o, v) :: as, (_, w) :: bs, h => by
    rw [compareKeys, Scalar.compareLists, compareKeys_eq_compareLists (Nat.succ.inj h)]
    rfl

theorem preorders_directed {α : Type} {cmp : α → α → Ordering} {F : α → Prop}
    (h : Preorders cmp F) : ∀ ascending, Preorders (fun a b => directed ascending (cmp a b)) F
  | true => h
  | false => h.reverse

/-- The values of one ordering are ordered in its direction. -/
theorem preorders_directedKey (o : OrderingTerm Expr) {V : Json → Prop}
    (h : Preorders Json.compare V) : Preorders directedKey fun k => k.1 = o ∧ V k.2 := by
  have byValue : Preorders (fun k l : OrderingTerm Expr × Json =>
      directed o.ascending (k.2.compare l.2)) fun k => V k.2 :=
    (preorders_directed h o.ascending).comap
  refine (byValue.mono fun k hk => hk.2).congr fun {k l} hk _ => ?_
  rw [directedKey, hk.1]

/-- The values of these orderings for documents are ordered lexicographically. -/
theorem preorders_compareKeys {orderings : List (OrderingTerm Expr)}
    {V : OrderingTerm Expr → Json → Prop} (h : ∀ o ∈ orderings, Preorders Json.compare (V o)) :
    Preorders compareKeys fun keys =>
      keys.map Prod.fst = orderings ∧ ∀ k ∈ keys, V k.1 k.2 := by
  have positions : ∀ i : ℕ, Preorders directedKey fun k : OrderingTerm Expr × Json =>
      orderings[i]? = some k.1 ∧ V k.1 k.2 := by
    intro i
    cases here : orderings[i]? with
    | none => exact .of_forall (fun h => nomatch h.1) fun h => nomatch h.1
    | some o =>
      refine (preorders_directedKey o (h o (List.mem_of_getElem? here))).mono ?_
      rintro k ⟨same, value⟩
      cases same
      exact ⟨rfl, value⟩
  refine ((Preorders.lists positions).mono ?_).congr ?_
  · rintro keys ⟨rfl, values⟩ i k hk
    exact ⟨by rw [List.getElem?_map, hk]; rfl, values k (List.mem_of_getElem? hk)⟩
  · rintro as bs ⟨left, -⟩ ⟨right, -⟩
    refine compareKeys_eq_compareLists ?_
    rw [← List.length_map (f := Prod.fst), left, ← right, List.length_map]

/-! ## 2. Ranking scores -/

/-- Shares fall with the rank. -/
theorem share_antitone {m n : ℕ} (h : m ≤ n) :
    (share n).NonNegative ∧ (share n).place ≤ (share m).place := by
  have one : Double.ofInt 1 = .finite ⟨false, 1 * unitsPerOne⟩ :=
    Double.ofInt_whole (k := 1) (by decide)
  rw [share, share, one]
  exact Double.div_antitone _ (Double.isNaN_ofInt _) (Double.isNaN_ofInt _)
    (Double.zero_lt_ofInt (by omega)) (Double.ofInt_mono (by omega))

variable {column : List (OrderingTerm Expr × Json)} {shares : List Double}

theorem nonNegative_reciprocalRanks (h : reciprocalRanks column = some shares) :
    ∀ x ∈ shares, x.NonNegative := by
  obtain ⟨order, -, rfl⟩ := Option.map_eq_some_iff.1 h
  intro x hx
  obtain ⟨i, -, rfl⟩ := List.mem_map.1 hx
  exact (share_antitone (Nat.le_refl _)).1

/-- What a pairwise relation does not allow in the one order is in the other. -/
theorem idxOf_lt_of_pairwise {R : ℕ → ℕ → Prop} {l : List ℕ} {i j : ℕ} (pairwise : l.Pairwise R)
    (hi : i ∈ l) (hj : j ∈ l) (different : i ≠ j) (h : ¬ R j i) : l.idxOf i < l.idxOf j := by
  have left := List.idxOf_lt_length_of_mem hi
  have right := List.idxOf_lt_length_of_mem hj
  rcases Nat.lt_trichotomy (l.idxOf i) (l.idxOf j) with less | same | greater
  · exact less
  · exact absurd ((List.idxOf_inj hi).1 same) different
  · have related := List.pairwise_iff_getElem.1 pairwise _ _ right left greater
    rw [List.getElem_idxOf, List.getElem_idxOf] at related
    exact absurd related h

/-- Falls from the document at `i` to that at `j`. -/
def Falls (i j : ℕ) (scores : List Double) : Prop :=
  ∀ x y, scores[i]? = some x → scores[j]? = some y → y.place ≤ x.place

/-- Of documents of equal values the earlier gets the larger share. -/
theorem falls_reciprocalRanks {i j : ℕ} {k l : OrderingTerm Expr × Json}
    (h : reciprocalRanks column = some shares) (ordered : Preorders directedKey (· ∈ column))
    (hk : column[i]? = some k) (hl : column[j]? = some l) (equal : directedKey k l = .eq)
    (earlier : i < j) : Falls i j shares := by
  obtain ⟨order, horder, rfl⟩ := Option.map_eq_some_iff.1 h
  have pairwise := pairwise_sortedPositions ordered horder
  have inRange : ∀ {n : ℕ} {m : OrderingTerm Expr × Json}, column[n]? = some m → n ∈ order := by
    intro n m hm
    rw [(sortedPositions_perm horder).mem_iff, List.mem_range]
    exact (List.getElem?_eq_some_iff.1 hm).1
  -- a stable sort never puts the later of equal values in front
  have ranks : order.idxOf i < order.idxOf j := by
    refine idxOf_lt_of_pairwise pairwise (inRange hk) (inRange hl)
      (Nat.ne_of_lt earlier) fun back => ?_
    have swapped := ordered.swap (List.mem_of_getElem? hl) (List.mem_of_getElem? hk)
    rw [equal] at swapped
    rcases back l k hl hk with less | ⟨-, later⟩
    · rw [swapped] at less
      cases less
    · exact Nat.lt_asymm earlier later
  intro x y hx hy
  rw [List.getElem?_map, Option.map_eq_some_iff] at hx hy
  obtain ⟨m, hm, rfl⟩ := hx
  obtain ⟨n, hn, rfl⟩ := hy
  obtain ⟨-, rfl⟩ := List.getElem?_eq_some_iff.1 hm
  obtain ⟨-, rfl⟩ := List.getElem?_eq_some_iff.1 hn
  rw [List.getElem_range, List.getElem_range]
  exact (share_antitone (Nat.le_of_lt ranks)).2

namespace Double

variable {x y : Double}

theorem isNaN_neg (h : x.isNaN = false) : x.neg.isNaN = false := by
  cases x with
  | nan => cases h
  | infinite negative | finite v => rfl

theorem key_neg (x : Double) : x.neg.key = x.key.map fun k => (-k.1, -k.2) := by
  cases x with
  | nan => rfl
  | infinite negative => cases negative <;> rfl
  | finite v =>
    obtain ⟨negative, units⟩ := v
    cases negative <;> simp [neg, key, Finite.value]

theorem equal_neg (h : x.equal y = true) : x.neg.equal y.neg = true := by
  obtain ⟨k, hx, hy⟩ := equal_iff.1 h
  exact equal_iff.2 ⟨(-k.1, -k.2), by rw [key_neg, hx]; rfl, by rw [key_neg, hy]; rfl⟩

end Double

theorem Json.isNaN_asDouble (j : Json) : (j.asDouble?.getD .zero).isNaN = false := by
  cases j with
  | number x => exact x.isNaN_toDouble
  | _ => rfl

theorem isNaN_singleScore (k : OrderingTerm Expr × Json) : (singleScore k).isNaN = false := by
  rw [singleScore]
  split
  · exact Double.isNaN_neg k.2.isNaN_asDouble
  · exact k.2.isNaN_asDouble

theorem Scalar.numberPlace_eq {a b : Scalar} (h : a.compare b = .eq) :
    a.numberPlace = b.numberPlace := by
  simp only [compare_eq, compare_place, Ordering.then_eq_eq, compare_eq_iff_eq] at h
  exact h.1.2.2.1

/-- Equal values have equal scores. -/
theorem equal_singleScore {k l : OrderingTerm Expr × Json} (same : k.1 = l.1)
    (equal : k.2.compare l.2 = .eq) : (singleScore k).equal (singleScore l) = true := by
  have scores : (k.2.asDouble?.getD .zero).equal (l.2.asDouble?.getD .zero) = true := by
    rw [Double.equal_iff_place k.2.isNaN_asDouble l.2.isNaN_asDouble, ← Scalar.asDouble?_ofJson,
      ← Scalar.asDouble?_ofJson]
    exact Scalar.numberPlace_eq equal
  rw [singleScore, singleScore, same]
  split
  · exact Double.equal_neg scores
  · exact scores

theorem nonNegative_zipWith {l l' : List Double} (hl : ∀ x ∈ l, x.NonNegative)
    (hl' : ∀ x ∈ l', x.NonNegative) : ∀ x ∈ l.zipWith Double.add l', x.NonNegative := by
  intro x hx
  obtain ⟨i, hi⟩ := List.mem_iff_getElem?.1 hx
  obtain ⟨a, b, ha, hb, rfl⟩ := List.getElem?_zipWith_eq_some.1 hi
  exact (hl a (List.mem_of_getElem? ha)).add (hl' b (List.mem_of_getElem? hb))

theorem falls_zipWith {i j : ℕ} {l l' : List Double} (hl : ∀ x ∈ l, x.NonNegative)
    (hl' : ∀ x ∈ l', x.NonNegative) (falls : Falls i j l) (falls' : Falls i j l') :
    Falls i j (l.zipWith Double.add l') := by
  intro x y hx hy
  obtain ⟨a, b, ha, hb, rfl⟩ := List.getElem?_zipWith_eq_some.1 hx
  obtain ⟨c, d, hc, hd, rfl⟩ := List.getElem?_zipWith_eq_some.1 hy
  exact Double.add_mono (hl c (List.mem_of_getElem? hc)) (hl a (List.mem_of_getElem? ha))
    (hl' d (List.mem_of_getElem? hd)) (hl' b (List.mem_of_getElem? hb)) (falls a c ha hc)
    (falls' b d hb hd)

variable {entries : List SortEntry} {scores : List Double}

/-- Ranking scores are numbers. -/
theorem isNaN_fusedScores (h : fusedScores entries = some scores) :
    ∀ x ∈ scores, x.isNaN = false := by
  rw [fusedScores] at h
  split at h
  · cases h
    exact fun x hx => absurd hx List.not_mem_nil
  · split at h
    · cases h
      intro x hx
      obtain ⟨keys, -, rfl⟩ := List.mem_map.1 hx
      cases keys with
      | nil => rfl
      | cons k _ => exact isNaN_singleScore k
    · refine fun x hx => Double.NonNegative.isNaN
        (foldlM_addShares_of (P := fun l => ∀ x ∈ l, x.NonNegative) (fun _ _ => nonNegative_zipWith)
          (fun _ _ _ => nonNegative_reciprocalRanks) ?_ h x hx)
      intro y hy
      obtain ⟨-, -, rfl⟩ := List.mem_map.1 hy
      exact Double.nonNegative_zero

/-! ## 3. Entries of one select -/

/-- The entries hold a value of each of these orderings. -/
structure Keyed (orderings : List (OrderingTerm Expr)) (V : OrderingTerm Expr → Json → Prop)
    (entries : List SortEntry) : Prop where
  orderings : ∀ e ∈ entries, e.keys.map Prod.fst = orderings
  values : ∀ e ∈ entries, ∀ k ∈ e.keys, V k.1 k.2

section

variable {orderings : List (OrderingTerm Expr)} {V : OrderingTerm Expr → Json → Prop}
  {a b e : SortEntry} {sorted : List SortEntry} {i j : ℕ}

theorem map_fst_scores (h : e.keys.map Prod.fst = orderings) :
    e.scores.map Prod.fst = orderings.filter (·.expr.isScoring) := by
  rw [← h, List.filter_map]
  rfl

theorem map_fst_plainKeys (h : e.keys.map Prod.fst = orderings) :
    e.plainKeys.map Prod.fst = orderings.filter (!·.expr.isScoring) := by
  rw [← h, List.filter_map]
  rfl

theorem length_scores (h : e.keys.map Prod.fst = orderings) :
    e.scores.length = (orderings.filter (·.expr.isScoring)).length := by
  rw [← map_fst_scores h, List.length_map]

theorem fusedScores_of_one (h : ∀ e ∈ entries, e.scores.length = 1) : fusedScores entries =
    some (entries.map fun e => (e.scores.head?.map singleScore).getD .zero) := by
  cases entries with
  | nil => rfl
  | cons first rest =>
    rw [fusedScores, List.map_cons]
    dsimp only
    rw [if_pos (h first List.mem_cons_self), List.map_cons, List.map_map, List.map_cons]
    rfl

/-- The values of the scoring ordering at a position. -/
def scoreColumn (entries : List SortEntry) (c : ℕ) : List (OrderingTerm Expr × Json) :=
  (entries.map SortEntry.scores).filterMap fun scores => scores[c]?

theorem fusedScores_of_many {n : ℕ} (several : n ≠ 1) (nonempty : entries ≠ [])
    (h : ∀ e ∈ entries, e.scores.length = n) : fusedScores entries =
    (List.range n).foldlM (addShares (entries.map SortEntry.scores))
      (entries.map fun _ => .zero) := by
  cases entries with
  | nil => exact absurd rfl nonempty
  | cons first rest =>
    have length := h first List.mem_cons_self
    rw [fusedScores, List.map_cons]
    dsimp only
    rw [if_neg (length ▸ several), length, ← List.map_cons (f := SortEntry.scores), List.map_map]
    rfl

/-- What is found in every item is found at the item's position. -/
theorem getElem?_filterMap_of_forall {α β : Type} {f : α → Option β} : ∀ {l : List α},
    (∀ a ∈ l, (f a).isSome) → ∀ i : ℕ, (l.filterMap f)[i]? = l[i]?.bind f
  | [], _, _ => rfl
  | a :: l, h, i => by
    obtain ⟨b, hb⟩ := Option.isSome_iff_exists.1 (h a List.mem_cons_self)
    rw [List.filterMap_cons_some hb]
    cases i with
    | zero => exact hb.symm
    | succ i =>
      rw [List.getElem?_cons_succ, List.getElem?_cons_succ]
      exact getElem?_filterMap_of_forall (fun x hx => h x (List.mem_cons_of_mem a hx)) i

theorem getElem?_scoreColumn {c n : ℕ} (h : ∀ e ∈ entries, e.scores.length = n) (hc : c < n)
    (ha : entries[i]? = some a) : (scoreColumn entries c)[i]? = a.scores[c]? := by
  have found : ∀ scores ∈ entries.map SortEntry.scores, scores[c]?.isSome := by
    intro scores hscores
    obtain ⟨e, he, rfl⟩ := List.mem_map.1 hscores
    rw [List.getElem?_eq_getElem (h e he ▸ hc)]
    rfl
  rw [scoreColumn, getElem?_filterMap_of_forall found, List.getElem?_map, ha]
  rfl

/-- The values of a scoring ordering are ordered in its direction. -/
theorem preorders_scoreColumn (keyed : Keyed orderings V entries)
    (steady : ∀ o ∈ orderings, Preorders Json.compare (V o)) {c : ℕ}
    (hc : c < (orderings.filter (·.expr.isScoring)).length) :
    Preorders directedKey (· ∈ scoreColumn entries c) := by
  have scoring := List.mem_filter.1 (List.getElem_mem hc)
  have ordered := preorders_directedKey (orderings.filter (·.expr.isScoring))[c] (steady _ scoring.1)
  refine ordered.mono fun k hk => ?_
  obtain ⟨scores, hscores, found⟩ := List.mem_filterMap.1 hk
  obtain ⟨e, he, rfl⟩ := List.mem_map.1 hscores
  have named : (orderings.filter (·.expr.isScoring))[c]? = some k.1 := by
    rw [← map_fst_scores (keyed.orderings e he), List.getElem?_map, found]
    rfl
  rw [List.getElem?_eq_getElem hc, Option.some_inj] at named
  rw [named]
  exact ⟨rfl, keyed.values e he k (List.mem_filter.1 (List.mem_of_getElem? found)).1⟩

/-- **Of documents of equal values the earlier does not rank lower.** -/
theorem falls_fusedScores (h : fusedScores entries = some scores)
    (keyed : Keyed orderings V entries)
    (several : (orderings.filter (·.expr.isScoring)).length ≠ 1)
    (steady : ∀ o ∈ orderings, Preorders Json.compare (V o))
    (ha : entries[i]? = some a) (hb : entries[j]? = some b) (same : SameValues a.scores b.scores)
    (earlier : i < j) : Falls i j scores := by
  have lengths : ∀ e ∈ entries, e.scores.length = (orderings.filter (·.expr.isScoring)).length :=
    fun e he => length_scores (keyed.orderings e he)
  rw [fusedScores_of_many several (List.ne_nil_of_mem (List.mem_of_getElem? ha)) lengths] at h
  -- the sums fall because the shares of every column do and no share is negative
  refine (foldlM_addShares_of (P := fun l => (∀ x ∈ l, x.NonNegative) ∧ Falls i j l) ?_ ?_ ?_ h).2
  · rintro l l' ⟨hl, falls⟩ ⟨hl', falls'⟩
    exact ⟨nonNegative_zipWith hl hl', falls_zipWith hl hl' falls falls'⟩
  · intro c hc shares hshares
    have inRange := List.mem_range.1 hc
    have left : c < a.scores.length := by rwa [lengths a (List.mem_of_getElem? ha)]
    have right : c < b.scores.length := by rwa [lengths b (List.mem_of_getElem? hb)]
    refine ⟨nonNegative_reciprocalRanks hshares,
      falls_reciprocalRanks hshares (preorders_scoreColumn keyed steady inRange)
        (k := a.scores[c]) (l := b.scores[c]) ?_ ?_ (directed_eq_eq.2 (same.get left right))
        earlier⟩
    · exact (getElem?_scoreColumn lengths inRange ha).trans (List.getElem?_eq_getElem left)
    · exact (getElem?_scoreColumn lengths inRange hb).trans (List.getElem?_eq_getElem right)
  · constructor
    · intro x hx
      obtain ⟨-, -, rfl⟩ := List.mem_map.1 hx
      exact Double.nonNegative_zero
    · intro x y hx hy
      rw [List.getElem?_map, Option.map_eq_some_iff] at hx hy
      obtain ⟨-, -, rfl⟩ := hx
      obtain ⟨-, -, rfl⟩ := hy
      exact le_refl _

/-- **Documents of equal values rank alike by a single ordering.** -/
theorem equal_fusedScores (h : fusedScores entries = some scores)
    (keyed : Keyed orderings V entries) (one : (orderings.filter (·.expr.isScoring)).length = 1)
    (ha : entries[i]? = some a) (hb : entries[j]? = some b)
    (same : SameValues a.scores b.scores) {x y : Double} (hx : scores[i]? = some x)
    (hy : scores[j]? = some y) : x.equal y = true := by
  have lengths : ∀ e ∈ entries, e.scores.length = 1 :=
    fun e he => (length_scores (keyed.orderings e he)).trans one
  rw [fusedScores_of_one lengths, Option.some_inj] at h
  rw [← h, List.getElem?_map] at hx hy
  rw [ha, Option.map_some, Option.some_inj] at hx
  rw [hb, Option.map_some, Option.some_inj] at hy
  obtain ⟨k, hk⟩ := List.length_eq_one_iff.1 (lengths a (List.mem_of_getElem? ha))
  obtain ⟨l, hl⟩ := List.length_eq_one_iff.1 (lengths b (List.mem_of_getElem? hb))
  have orderings := (map_fst_scores (keyed.orderings a (List.mem_of_getElem? ha))).trans
    (map_fst_scores (keyed.orderings b (List.mem_of_getElem? hb))).symm
  rw [hk, hl] at same orderings
  rw [← hx, ← hy, hk, hl]
  cases same with
  | cons equal _ => exact equal_singleScore (List.cons_eq_cons.1 orderings).1 equal

/-! ## 4. The order -/

/-- The plain orderings put the first document in front, or they leave it to the positions. -/
def PlainBefore (a b : SortEntry) (i j : ℕ) : Prop :=
  ComesFirst a.plainKeys b.plainKeys ∨ SameValues a.plainKeys b.plainKeys ∧ i < j

/-- What it says of two documents that one comes before the other when the rows are ranked: of the
positions `i` and `j` in which they were stored and of their ranking scores `x` and `y`.  It says
more when there is `one` scoring ordering, or when the values of all orderings are `steady`. -/
structure RanksBefore (one steady : Prop) (a b : SortEntry) (i j : ℕ) (x y : Double) : Prop where
  /-- The larger score comes first, and the plain orderings decide between equal ones. -/
  byScore : y.compare? x = some .lt ∨ x.equal y = true ∧ PlainBefore a b i j
  /-- By one scoring ordering documents of equal values tie. -/
  ofOne : one → SameValues a.scores b.scores → PlainBefore a b i j
  /-- By several they are ranked as they were stored, unless their sums tie. -/
  ofSeveral : steady → SameValues a.scores b.scores →
    i < j ∨ x.equal y = true ∧ PlainBefore a b i j

theorem Double.compare?_ne_lt {x y : Double} (hx : x.isNaN = false) (hy : y.isNaN = false)
    (h : x.place ≤ y.place) : y.compare? x ≠ some .lt := by
  intro less
  have places := Double.compare?_eq_place hy hx
  rw [less] at places
  exact absurd (compare_lt_iff_lt.1 places.symm) (not_lt_of_ge h)

theorem byScore_of_precedes {x y : Double} (hx : x.isNaN = false) (hy : y.isNaN = false)
    (alike : a.plainKeys.map Prod.fst = b.plainKeys.map Prod.fst)
    (h : Precedes compareRanked ((a, x), i) ((b, y), j)) :
    y.compare? x = some .lt ∨ x.equal y = true ∧ PlainBefore a b i j := by
  have equal : (y.compare? x).getD .eq = .eq → x.equal y = true := by
    rw [Double.compare?_eq_place hy hx, compare_eq_iff_eq, Double.equal_iff_place hx hy]
    exact Eq.symm
  rw [PlainBefore, ← compareKeys_eq_lt_iff alike, ← compareKeys_eq_eq_iff alike]
  rcases h with less | ⟨same, earlier⟩
  · rcases Ordering.then_eq_lt.1 less with less | ⟨tie, less⟩
    · cases order : y.compare? x with
      | none =>
        rw [order] at less
        cases less
      | some o =>
        rw [order] at less
        exact .inl (congrArg some less)
    · exact .inr ⟨equal tie, .inl less⟩
  · obtain ⟨tie, same⟩ := Ordering.then_eq_eq.1 same
    exact .inr ⟨equal tie, .inr ⟨same, earlier⟩⟩

namespace Keyed

theorem length_fusedScores (keyed : Keyed orderings V entries)
    (h : fusedScores entries = some scores) : scores.length = entries.length := by
  refine DocQuery.length_fusedScores h fun a ha b hb => ?_
  rw [length_scores (keyed.orderings a ha), length_scores (keyed.orderings b hb)]

/-- Entries with their scores are ordered when their plain values are. -/
theorem preorders_compareRanked (keyed : Keyed orderings V entries)
    (h : fusedScores entries = some scores)
    (plain : ∀ o ∈ orderings, o.expr.isScoring = false → Preorders Json.compare (V o)) :
    Preorders compareRanked (· ∈ entries.zip scores) := by
  have number : ∀ m ∈ entries.zip scores, m.2.isNaN = false :=
    fun m hm => isNaN_fusedScores h m.2 (List.of_mem_zip hm).2
  have byScore : Preorders (fun m m' : SortEntry × Double => (m'.2.compare? m.2).getD .eq)
      (· ∈ entries.zip scores) := by
    have places : Preorders (fun m m' : SortEntry × Double => Ord.compare m'.2.place m.2.place)
        (· ∈ entries.zip scores) := by
      refine .of_forall (fun _ _ => Std.OrientedOrd.eq_swap) fun _ _ _ hab hbc => ?_
      exact Std.TransOrd.isLE_trans hbc hab
    exact places.congr fun ha hb => Double.compare?_eq_place (number _ hb) (number _ ha)
  have plainOnes : ∀ o ∈ orderings.filter (!·.expr.isScoring), Preorders Json.compare (V o) := by
    intro o ho
    obtain ⟨member, plainOne⟩ := List.mem_filter.1 ho
    exact plain o member (Bool.not_eq_true' _ ▸ plainOne)
  have byPlain : Preorders (fun m m' : SortEntry × Double =>
      compareKeys m.1.plainKeys m'.1.plainKeys) (· ∈ entries.zip scores) := by
    refine ((preorders_compareKeys plainOnes).comap (f := fun m : SortEntry × Double =>
      m.1.plainKeys)).mono fun m hm => ?_
    have he := (List.of_mem_zip hm).1
    exact ⟨map_fst_plainKeys (keyed.orderings _ he),
      fun k hk => keyed.values _ he k (List.mem_filter.1 hk).1⟩
  exact byScore.andThen byPlain

/-- The ranked entries are those at the positions that the sort gives. -/
theorem exists_order_sortEntries (keyed : Keyed orderings V entries)
    (hsorted : sortEntries true entries = some sorted) :
    ∃ scores order, fusedScores entries = some scores ∧
      sortedPositions 8 compareRanked (entries.zip scores) = some order ∧
      sorted.map some = order.map fun i => entries[i]? := by
  obtain ⟨scores, hscores, hsorted⟩ := Option.bind_eq_some_iff.1 hsorted
  obtain ⟨pairs, hpairs, hsorted⟩ := Option.bind_eq_some_iff.1 hsorted
  obtain ⟨order, horder, positions⟩ := sortBy_eq_some.1 hpairs
  have first : ∀ i : ℕ, entries[i]? = (entries.zip scores)[i]?.map Prod.fst := by
    intro i
    rw [← List.getElem?_map,
      List.map_fst_zip (Nat.le_of_eq (keyed.length_fusedScores hscores).symm)]
  have entries' := congrArg (List.map (Option.map Prod.fst)) positions
  rw [List.map_map, List.map_map] at entries'
  refine ⟨scores, order, hscores, horder, ?_⟩
  rw [List.map_congr_left fun i _ => first i, ← Option.some.inj hsorted, List.map_map]
  exact entries'

theorem ranksBefore (keyed : Keyed orderings V entries) (hscores : fusedScores entries = some scores)
    {x y : Double} (ha : entries[i]? = some a) (hb : entries[j]? = some b)
    (hx : scores[i]? = some x) (hy : scores[j]? = some y) (different : i ≠ j)
    (h : Precedes compareRanked ((a, x), i) ((b, y), j)) :
    RanksBefore ((orderings.filter (·.expr.isScoring)).length = 1)
      (∀ o ∈ orderings, Preorders Json.compare (V o)) a b i j x y := by
  have left := List.mem_of_getElem? ha
  have right := List.mem_of_getElem? hb
  have hx' := isNaN_fusedScores hscores x (List.mem_of_getElem? hx)
  have hy' := isNaN_fusedScores hscores y (List.mem_of_getElem? hy)
  have byScore := byScore_of_precedes hx' hy' ((map_fst_plainKeys (keyed.orderings a left)).trans
    (map_fst_plainKeys (keyed.orderings b right)).symm) h
  have tied : x.place ≤ y.place → x.equal y = true ∧ PlainBefore a b i j := fun h =>
    byScore.resolve_left (Double.compare?_ne_lt hx' hy' h)
  have ofOne : (orderings.filter (·.expr.isScoring)).length = 1 → SameValues a.scores b.scores →
      x.equal y = true ∧ PlainBefore a b i j := fun one same =>
    tied (le_of_eq (Double.place_eq_of_equal (equal_fusedScores hscores keyed one ha hb same hx hy)))
  refine ⟨byScore, fun one same => (ofOne one same).2, fun steady same => ?_⟩
  by_cases one : (orderings.filter (·.expr.isScoring)).length = 1
  · exact .inr (ofOne one same)
  -- the later of two comes first only when its score, which is not larger, is equal
  · rcases Nat.lt_or_gt_of_ne different with earlier | later
    · exact .inl earlier
    · exact .inr (tied
        (falls_fusedScores hscores keyed one steady hb ha same.symm later y x hy hx))

/-- **The order of ranked entries.** -/
theorem exists_rankedOrder (keyed : Keyed orderings V entries)
    (hsorted : sortEntries true entries = some sorted)
    (plain : ∀ o ∈ orderings, o.expr.isScoring = false → Preorders Json.compare (V o)) :
    ∃ (scores : List Double) (order : List ℕ), fusedScores entries = some scores ∧
      order.Perm (List.range entries.length) ∧
      sorted.map some = order.map (fun i => entries[i]?) ∧
      order.Pairwise fun i j => ∃ a b x y, entries[i]? = some a ∧ entries[j]? = some b ∧
        scores[i]? = some x ∧ scores[j]? = some y ∧
        RanksBefore ((orderings.filter (·.expr.isScoring)).length = 1)
          (∀ o ∈ orderings, Preorders Json.compare (V o)) a b i j x y := by
  obtain ⟨scores, order, hscores, horder, positions⟩ := keyed.exists_order_sortEntries hsorted
  have lengths := keyed.length_fusedScores hscores
  have perm : order.Perm (List.range entries.length) := by
    have all := sortedPositions_perm horder
    rwa [List.length_zip, lengths, Nat.min_self] at all
  have distinct : order.Pairwise (· ≠ ·) := perm.nodup_iff.2 List.nodup_range
  have found : ∀ i ∈ order, ∃ e x, entries[i]? = some e ∧ scores[i]? = some x := by
    intro i hi
    have inRange : i < entries.length := List.mem_range.1 (perm.mem_iff.1 hi)
    exact ⟨_, _, List.getElem?_eq_getElem inRange, List.getElem?_eq_getElem (lengths ▸ inRange)⟩
  have ranked := pairwise_sortedPositions (keyed.preorders_compareRanked hscores plain) horder
  refine ⟨scores, order, hscores, perm, positions, (ranked.and distinct).imp_of_mem ?_⟩
  rintro i j hi hj ⟨precedes, different⟩
  obtain ⟨a, x, ha, hx⟩ := found i hi
  obtain ⟨b, y, hb, hy⟩ := found j hj
  exact ⟨a, b, x, y, ha, hb, hx, hy, keyed.ranksBefore hscores ha hb hx hy different
    (precedes (a, x) (b, y) (List.getElem?_zip_eq_some.2 ⟨ha, hx⟩)
      (List.getElem?_zip_eq_some.2 ⟨hb, hy⟩))⟩

end Keyed

end

/-! ## 5. Ranked selects -/

namespace SelectOf

variable {s : Select} {parameters : Dictionary Json} {documents : List Json}

/-- The values of an ordering for documents. -/
def orderingValues (s : Select) (parameters : Dictionary Json) (documents : List Json)
    (o : OrderingTerm Expr) (v : Json) : Prop :=
  ∃ d ∈ documents, o.expr.eval (s.environment parameters d) = .ok v

/-- The values of an ordering for documents do not slip, so that they are ordered. -/
def SteadyBy (s : Select) (parameters : Dictionary Json) (documents : List Json)
    (o : OrderingTerm Expr) : Prop :=
  Scalar.Steady fun x => ∃ v, s.orderingValues parameters documents o v ∧ .ofJson v = x

theorem preorders_orderingValues {o : OrderingTerm Expr} :
    Preorders Json.compare (s.orderingValues parameters documents o) ↔
      s.SteadyBy parameters documents o :=
  Scalar.preorders_image

theorem keyed_entries {entries : List SortEntry}
    (h : documents.mapM (s.sortEntry parameters) = .ok entries) :
    Keyed s.orderings (s.orderingValues parameters documents) entries := by
  constructor
  · intro e he
    obtain ⟨d, -, hd⟩ := mem_of_mapM_eq_ok h e he
    exact (sortEntry_eq_ok hd).1
  · intro e he k hk
    obtain ⟨d, member, hd⟩ := mem_of_mapM_eq_ok h e he
    obtain ⟨keys, hkeys, hentry⟩ := bind_eq_ok.1 hd
    cases pure_eq_ok.1 hentry
    obtain ⟨o, -, hkey⟩ := mem_of_mapM_eq_ok hkeys k hk
    obtain ⟨v, hv, hpair⟩ := bind_eq_ok.1 hkey
    cases pure_eq_ok.1 hpair
    exact ⟨d, member, hv⟩

theorem run_eq_ok {layout : RowLayout} {rows : List Row}
    (h : s.run parameters layout documents = .ok rows) :
    ∃ sorted tuples offset limit,
      s.sortDocuments parameters (documents.filter (s.selects parameters)) = .ok sorted ∧
      sorted.mapM (s.project parameters) = .ok tuples ∧
      s.bound? parameters "OFFSET" s.offset = .ok offset ∧
      s.bound? parameters "LIMIT" s.limit = .ok limit ∧
      rows = window (offset.getD 0) limit (s.rows layout tuples) := by
  have bounds := h
  simp only [run, bind_eq_ok] at bounds
  obtain ⟨-, -, -, -, offset, hoffset, limit, hlimit, -⟩ := bounds
  have cut := run_bounded s.offset s.limit hoffset hlimit layout documents
  obtain ⟨tuples, htuples, hrows⟩ := map_eq_ok.1 (cut.symm.trans h)
  obtain ⟨sorted, hsorted, hproject⟩ := tuples_eq_ok htuples
  exact ⟨sorted, tuples, offset, limit, hsorted, hproject, hoffset, hlimit, hrows.symm⟩

/-- The sort of a ranked select ranks the entries of its documents. -/
theorem sortDocuments_ranked {sorted : List Json} (ranked : s.isScoreOrdered = true)
    (h : s.sortDocuments parameters documents = .ok sorted) :
    ∃ entries ranking, documents.mapM (s.sortEntry parameters) = .ok entries ∧
      sortEntries true entries = some ranking ∧ sorted = ranking.map (·.document) := by
  have ordered : s.orderings.isEmpty = false := by
    unfold isScoreOrdered at ranked
    cases orderings : s.orderings with
    | nil =>
      rw [orderings] at ranked
      cases ranked
    | cons o rest => rfl
  rw [sortDocuments, ordered, ranked] at h
  obtain ⟨entries, hentries, h⟩ := bind_eq_ok.1 h
  obtain ⟨ranking, hranking, hsorted⟩ := bind_eq_ok.1 h
  exact ⟨entries, ranking, hentries, RunError.ofSort_eq_ok.1 hranking,
    (pure_eq_ok.1 hsorted).symm⟩

end SelectOf

namespace Store

/-- **The order of ranked selects.**  The rows are those of the matching documents in an order in
which larger ranking scores come first, and documents of equal score as the plain orderings, each in
its direction, put them, and then as they were stored.  By one scoring ordering documents of equal
values have equal scores.  By several each document of equal values has its own ranks, and the one
that was stored first comes first unless the sums are equal. -/
theorem execute_ranked {s : Store} {r : QueryRequest} {rows : List Row}
    (ranked : r.select.isScoreOrdered = true) (h : s.execute r = .ok rows)
    (plain : ∀ o ∈ r.select.orderings, o.expr.isScoring = false →
      r.select.SteadyBy r.command.bindings (s.matching r) o) :
    ∃ (entries : List SortEntry) (scores : List Double) (order : List ℕ) (sorted : List Json)
      (tuples : List (List Json)) (offset limit : Option ℕ),
      (s.matching r).mapM (r.select.sortEntry r.command.bindings) = .ok entries ∧
      fusedScores entries = some scores ∧
      order.Perm (List.range (s.matching r).length) ∧
      sorted.map some = order.map (fun i => (s.matching r)[i]?) ∧
      sorted.mapM (r.select.project r.command.bindings) = .ok tuples ∧
      r.select.bound? r.command.bindings "OFFSET" r.select.offset = .ok offset ∧
      r.select.bound? r.command.bindings "LIMIT" r.select.limit = .ok limit ∧
      rows = SelectOf.window (offset.getD 0) limit (r.select.rows r.layout tuples) ∧
      order.Pairwise fun i j => ∃ a b x y, entries[i]? = some a ∧ entries[j]? = some b ∧
        scores[i]? = some x ∧ scores[j]? = some y ∧
        RanksBefore ((r.select.orderings.filter (·.expr.isScoring)).length = 1)
          (∀ o ∈ r.select.orderings, r.select.SteadyBy r.command.bindings (s.matching r) o)
          a b i j x y := by
  obtain ⟨sorted, tuples, offset, limit, hsorted, hproject, hoffset, hlimit, hrows⟩ :=
    SelectOf.run_eq_ok h
  obtain ⟨entries, ranking, hentries, hranking, rfl⟩ :=
    SelectOf.sortDocuments_ranked ranked hsorted
  have bodies : entries.map (·.document) = s.matching r := by
    rw [map_of_mapM (g := (·.document)) (k := id)
      (fun _ _ _ he => (SelectOf.sortEntry_eq_ok he).2) hentries, List.map_id]
    rfl
  obtain ⟨scores, order, hscores, perm, hsorted, hpairwise⟩ :=
    (SelectOf.keyed_entries hentries).exists_rankedOrder hranking fun o member plainOne =>
      SelectOf.preorders_orderingValues.2 (plain o member plainOne)
  simp only [SelectOf.preorders_orderingValues] at hpairwise
  refine ⟨entries, scores, order, _, tuples, offset, limit, hentries, hscores, ?_, ?_, hproject,
    hoffset, hlimit, hrows, hpairwise⟩
  · rwa [← bodies, List.length_map]
  · have documents := congrArg (List.map (Option.map SortEntry.document)) hsorted
    rw [List.map_map, List.map_map] at documents
    rw [← bodies, List.map_map]
    simp only [List.getElem?_map]
    exact documents

end Store

/-! ## 6. Ranked posts -/

/-- The full text score of a word in the tag of a post, the best first. -/
def tagScore (word : String) : OrderingTerm Expr :=
  ⟨.function "FullTextScore" [.column "c" ["tag"] .utf8 none, .ofScalar (.text word) none] true
    .float64 none, false⟩

/-- The ids of all posts, ordered by these words and then by id. -/
def postRanking (words : List String) : QueryRequest where
  container := "posts"
  partitionKey := none
  layout := .ordinal
  command := ⟨"", []⟩
  select :=
    { taggedPosts with
      predicate := none
      orderings := words.map tagScore ++ taggedPosts.orderings
      limit := none }

/-- The integers in rows of one value. -/
def rowIntegers (rows : List Row) : List (Option Int) :=
  rows.map fun
    | .ordinal [v] => v.asInt64?
    | _ => none

theorem matching_postRanking (words : List String) : postStore.matching (postRanking words) =
    [.object [("id", .ofInt 4), ("tag", .string "b")],
      .object [("id", .ofInt 3), ("tag", .string "a")],
      .object [("id", .ofInt 1), ("tag", .string "c")],
      .object [("id", .ofInt 2), ("tag", .string "b")]] := rfl

/-- The ids fit 32 bits, so they do not slip. -/
theorem steadyBy_postRanking (words : List String) :
    ∀ o ∈ (postRanking words).select.orderings, o.expr.isScoring = false →
      (postRanking words).select.SteadyBy (postRanking words).command.bindings
        (postStore.matching (postRanking words)) o := by
  intro o ho plain
  rcases List.mem_append.1 ho with scoring | ho
  · obtain ⟨word, -, rfl⟩ := List.mem_map.1 scoring
    cases plain
  · cases List.mem_singleton.1 ho
    have short : ∀ d ∈ postStore.matching (postRanking words), ∀ v,
        (Expr.column "c" ["id"] .int32 none).eval ((postRanking words).select.environment
          (postRanking words).command.bindings d) = .ok v →
        (Scalar.ofJson v).dataType? = some .int32 := by
      intro d hd v hv
      rw [matching_postRanking] at hd
      simp only [List.mem_cons, List.not_mem_nil, or_false] at hd
      rcases hd with rfl | rfl | rfl | rfl <;> cases hv <;> rfl
    rintro _ _ _ ⟨v, ⟨d, hd, hv⟩, hm⟩ - - ⟨-, -, -, -, -⟩
    have fits := short d hd v hv
    rw [hm] at fits
    cases fits

/-- By one word the posts that have it come first, and posts that agree in it come by their ids. -/
theorem Store.execute_ranked_oneWord :
    ∃ (rows : List Row) (entries : List SortEntry) (order : List ℕ),
      postStore.execute (postRanking ["b"]) = .ok rows ∧
      rowIntegers rows = [some 2, some 4, some 1, some 3] ∧
      (postStore.matching (postRanking ["b"])).mapM
        ((postRanking ["b"]).select.sortEntry .empty) = .ok entries ∧
      order.Perm (List.range 4) ∧
      order.Pairwise fun i j => ∃ a b, entries[i]? = some a ∧ entries[j]? = some b ∧
        (SameValues a.scores b.scores → PlainBefore a b i j) := by
  have outcome : (postStore.execute (postRanking ["b"])).toOption.map rowIntegers =
      some [some 2, some 4, some 1, some 3] := by decide +kernel
  obtain ⟨rows, hrows, integers⟩ := Option.map_eq_some_iff.1 outcome
  have h := ok_of_toOption hrows
  obtain ⟨entries, scores, order, -, -, -, -, hentries, -, perm, -, -, -, -, -, ranks⟩ :=
    execute_ranked rfl h (steadyBy_postRanking ["b"])
  refine ⟨rows, entries, order, h, integers, hentries, perm, ranks.imp ?_⟩
  rintro i j ⟨a, b, x, y, ha, hb, -, -, before⟩
  exact ⟨a, b, ha, hb, before.ofOne rfl⟩

/-- By two words the posts 4 and 2, which agree in both, are ranked as they were stored, although
the ordering by id puts post 2 in front. -/
theorem Store.ranks_equal_values_apart :
    ∃ (rows : List Row) (entries : List SortEntry) (a b : SortEntry),
      postStore.execute (postRanking ["b", "a"]) = .ok rows ∧
      rowIntegers rows = [some 4, some 3, some 2, some 1] ∧
      (postStore.matching (postRanking ["b", "a"])).mapM
        ((postRanking ["b", "a"]).select.sortEntry .empty) = .ok entries ∧
      entries[0]? = some a ∧ a.document = .object [("id", .ofInt 4), ("tag", .string "b")] ∧
      entries[3]? = some b ∧ b.document = .object [("id", .ofInt 2), ("tag", .string "b")] ∧
      SameValues a.scores b.scores ∧ ComesFirst b.plainKeys a.plainKeys := by
  have outcome : (postStore.execute (postRanking ["b", "a"])).toOption.map rowIntegers =
      some [some 4, some 3, some 2, some 1] := by decide +kernel
  obtain ⟨rows, hrows, integers⟩ := Option.map_eq_some_iff.1 outcome
  have outcome : ((postStore.matching (postRanking ["b", "a"])).mapM
      ((postRanking ["b", "a"]).select.sortEntry .empty)).toOption.map (fun entries =>
        entries[0]?.bind fun a => entries[3]?.map fun b =>
          (compareKeys a.scores b.scores, compareKeys b.plainKeys a.plainKeys)) =
      some (some (.eq, .lt)) := by
    decide +kernel
  obtain ⟨entries, hentries, compared⟩ := Option.map_eq_some_iff.1 outcome
  obtain ⟨a, ha, compared⟩ := Option.bind_eq_some_iff.1 compared
  obtain ⟨b, hb, compared⟩ := Option.map_eq_some_iff.1 compared
  obtain ⟨scores, plain⟩ := Prod.mk.inj compared
  have h := ok_of_toOption hentries
  have keyed := SelectOf.keyed_entries h
  have orderings : a.keys.map Prod.fst = b.keys.map Prod.fst :=
    (keyed.orderings a (List.mem_of_getElem? ha)).trans
      (keyed.orderings b (List.mem_of_getElem? hb)).symm
  have bodies := map_of_mapM (g := (·.document)) (k := id)
    (fun _ _ _ he => (SelectOf.sortEntry_eq_ok he).2) h
  rw [matching_postRanking, List.map_id] at bodies
  refine ⟨rows, entries, a, b, ok_of_toOption hrows, integers, h, ha, ?_, hb, ?_, ?_, ?_⟩
  · have first := congrArg (·[0]?) bodies
    rw [List.getElem?_map, ha] at first
    exact Option.some.inj first
  · have last := congrArg (·[3]?) bodies
    rw [List.getElem?_map, hb] at last
    exact Option.some.inj last
  · refine (compareKeys_eq_eq_iff ?_).1 scores
    rw [map_fst_scores orderings, map_fst_scores rfl]
  · refine (compareKeys_eq_lt_iff ?_).1 plain
    rw [map_fst_plainKeys orderings, map_fst_plainKeys rfl]

end DocQuery
