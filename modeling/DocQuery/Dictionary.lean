/-
# Dictionaries

Maps from names to values, held as a list with strictly ascending names.  The list is therefore
determined by the lookups, so equal maps are equal lists and are written alike.
-/

namespace DocQuery

/-- Puts `value` under `key` into an ascending list, replacing what was there. -/
def insertAscending {α : Type} (key : String) (value : α) : List (String × α) → List (String × α)
  | [] => [(key, value)]
  | (k, v) :: rest =>
    if key < k then (key, value) :: (k, v) :: rest
    else if k < key then (k, v) :: insertAscending key value rest
    else (key, value) :: rest

theorem mem_insertAscending {α : Type} {key : String} {value : α} {entries : List (String × α)}
    {e : String × α} (h : e ∈ insertAscending key value entries) :
    e = (key, value) ∨ e ∈ entries := by
  induction entries with
  | nil => simpa [insertAscending] using h
  | cons head rest ih =>
    obtain ⟨k, v⟩ := head
    simp only [insertAscending] at h
    split at h
    · simpa using h
    · split at h
      · rcases List.mem_cons.1 h with h | h
        · simp [h]
        · rcases ih h with h | h <;> simp [h]
      · rcases List.mem_cons.1 h with h | h <;> simp [h]

theorem pairwise_insertAscending {α : Type} (key : String) (value : α)
    (entries : List (String × α)) (h : entries.Pairwise (·.1 < ·.1)) :
    (insertAscending key value entries).Pairwise (·.1 < ·.1) := by
  induction entries with
  | nil => simp [insertAscending]
  | cons head rest ih =>
    obtain ⟨k, v⟩ := head
    rw [List.pairwise_cons] at h
    simp only [insertAscending]
    split
    · next hlt =>
      refine List.pairwise_cons.2 ⟨?_, List.pairwise_cons.2 h⟩
      intro e he
      rcases List.mem_cons.1 he with rfl | he
      · exact hlt
      · exact String.lt_trans hlt (h.1 e he)
    · next hnlt =>
      split
      · next hgt =>
        refine List.pairwise_cons.2 ⟨?_, ih h.2⟩
        intro e he
        rcases mem_insertAscending he with rfl | he
        · exact hgt
        · exact h.1 e he
      · next hngt =>
        have heq : key = k := String.le_antisymm (String.not_lt.1 hngt) (String.not_lt.1 hnlt)
        subst heq
        exact List.pairwise_cons.2 ⟨h.1, h.2⟩

theorem lookup_cons_eq_ite {α : Type} (key k : String) (value : α) (rest : List (String × α)) :
    ((key, value) :: rest).lookup k = if k = key then some value else rest.lookup k := by
  rw [List.lookup_cons]
  split
  · next h => rw [if_pos (beq_iff_eq.1 h)]
  · next h => rw [if_neg (by simpa using h)]

theorem lookup_eq_some_of_mem {α : Type} {key : String} {value : α} :
    ∀ {entries : List (String × α)}, (key, value) ∈ entries →
    (∀ other, (key, other) ∈ entries → other = value) → entries.lookup key = some value
  | (k, v) :: rest, h, unique => by
    rw [lookup_cons_eq_ite]
    split
    · next hk => rw [unique v (hk ▸ List.mem_cons_self)]
    · next hk =>
      rcases List.mem_cons.1 h with h | h
      · exact absurd (congrArg Prod.fst h) hk
      · exact lookup_eq_some_of_mem h fun other ho => unique other (List.mem_cons_of_mem _ ho)

theorem mem_of_lookup_eq_some {α : Type} {key : String} {value : α} {entries : List (String × α)}
    (h : entries.lookup key = some value) : (key, value) ∈ entries := by
  induction entries with
  | nil => simp at h
  | cons head rest ih =>
    obtain ⟨k, v⟩ := head
    rw [List.lookup_cons] at h
    split at h
    · next hk => simp_all
    · exact List.mem_cons_of_mem _ (ih h)

theorem value_eq_of_nodup {α : Type} {key : String} {a b : α} : ∀ {entries : List (String × α)},
    (entries.map Prod.fst).Nodup → (key, a) ∈ entries → (key, b) ∈ entries → a = b
  | (k, v) :: rest, distinct, ha, hb => by
    obtain ⟨hk, hrest⟩ := List.nodup_cons.1 distinct
    have absent : ∀ {c}, (key, c) ∈ rest → k ≠ key := fun hc heq =>
      hk (heq ▸ List.mem_map.2 ⟨_, hc, rfl⟩)
    rcases List.mem_cons.1 ha with ha | ha <;> rcases List.mem_cons.1 hb with hb | hb
    · exact congrArg Prod.snd (ha.trans hb.symm)
    · exact absurd (congrArg Prod.fst ha).symm (absent hb)
    · exact absurd (congrArg Prod.fst hb).symm (absent ha)
    · exact value_eq_of_nodup hrest ha hb

theorem lookup_insertAscending {α : Type} (key k : String) (value : α) :
    ∀ entries : List (String × α),
    (insertAscending key value entries).lookup k =
      if k = key then some value else entries.lookup k
  | [] => lookup_cons_eq_ite key k value []
  | (name, v) :: rest => by
    rw [insertAscending]
    split
    · exact lookup_cons_eq_ite key k value _
    · next hnlt =>
      split
      · next hlt =>
        rw [lookup_cons_eq_ite, lookup_insertAscending key k value rest, lookup_cons_eq_ite]
        by_cases h : k = key
        · have hne : k ≠ name := fun hk => String.lt_irrefl name (by rwa [← hk, h] at hlt ⊢)
          rw [if_neg hne, if_pos h, if_pos h]
        · rw [if_neg h, if_neg h]
      · next hngt =>
        have heq : key = name := String.le_antisymm (String.not_lt.1 hngt) (String.not_lt.1 hnlt)
        rw [lookup_cons_eq_ite, lookup_cons_eq_ite, heq]
        by_cases h : k = name
        · rw [if_pos h, if_pos h]
        · rw [if_neg h, if_neg h, if_neg h]

theorem lookup_map_values {α β : Type} (f : α → β) (key : String) : ∀ entries : List (String × α),
    (entries.map fun e => (e.1, f e.2)).lookup key = (entries.lookup key).map f
  | [] => rfl
  | (name, value) :: rest => by
    rw [List.map_cons, lookup_cons_eq_ite, lookup_cons_eq_ite, lookup_map_values f key rest]
    split <;> rfl

/-- With distinct names the entries are what the lookups find. -/
theorem mem_iff_lookup_eq_some {α : Type} {key : String} {value : α} {entries : List (String × α)}
    (distinct : (entries.map Prod.fst).Nodup) :
    (key, value) ∈ entries ↔ entries.lookup key = some value :=
  ⟨fun member => lookup_eq_some_of_mem member fun _ other =>
    value_eq_of_nodup distinct other member, mem_of_lookup_eq_some⟩

theorem nodup_of_ascending {α : Type} {entries : List (String × α)}
    (ascending : entries.Pairwise (·.1 < ·.1)) : (entries.map Prod.fst).Nodup :=
  List.pairwise_map.2 (ascending.imp String.ne_of_lt)

/-- Ascending lists with the same lookups have the same entries, and these in one order. -/
theorem eq_of_lookup_eq {α : Type} {as bs : List (String × α)} (ha : as.Pairwise (·.1 < ·.1))
    (hb : bs.Pairwise (·.1 < ·.1)) (same : ∀ key, as.lookup key = bs.lookup key) : as = bs := by
  have differ : ∀ {e e' : String × α}, e.1 < e'.1 → e ≠ e' := fun less equal =>
    String.ne_of_lt less (congrArg Prod.fst equal)
  have perm : as.Perm bs := by
    refine (List.perm_ext_iff_of_nodup (ha.imp differ) (hb.imp differ)).2 fun (key, value) => ?_
    rw [mem_iff_lookup_eq_some (nodup_of_ascending ha),
      mem_iff_lookup_eq_some (nodup_of_ascending hb), same]
  exact perm.eq_of_pairwise (fun _ _ _ _ less greater => absurd greater (String.lt_asymm less)) ha hb

/-- A map from names to values. -/
structure Dictionary (α : Type) where
  entries : List (String × α)
  ascending : entries.Pairwise (·.1 < ·.1)

namespace Dictionary

variable {α β : Type}

instance [DecidableEq α] : DecidableEq (Dictionary α) := fun a b =>
  if h : a.entries = b.entries then
    isTrue (by cases a; cases b; simp at h; subst h; rfl)
  else isFalse (by rintro rfl; exact h rfl)

def empty : Dictionary α := ⟨[], .nil⟩

instance : EmptyCollection (Dictionary α) := ⟨empty⟩

instance : Inhabited (Dictionary α) := ⟨empty⟩

def insert (d : Dictionary α) (key : String) (value : α) : Dictionary α :=
  ⟨insertAscending key value d.entries, pairwise_insertAscending key value d.entries d.ascending⟩

/-- Later entries replace earlier ones of the same name. -/
def ofList (entries : List (String × α)) : Dictionary α :=
  entries.foldl (fun d e => d.insert e.1 e.2) empty

def find? (d : Dictionary α) (key : String) : Option α := d.entries.lookup key

def contains (d : Dictionary α) (key : String) : Bool := (d.find? key).isSome

def keys (d : Dictionary α) : List String := d.entries.map Prod.fst

def values (d : Dictionary α) : List α := d.entries.map Prod.snd

def size (d : Dictionary α) : Nat := d.entries.length

def isEmpty (d : Dictionary α) : Bool := d.entries.isEmpty

/-- The same names with other values. -/
def map (f : α → β) (d : Dictionary α) : Dictionary β :=
  ⟨d.entries.map fun e => (e.1, f e.2), by
    rw [List.pairwise_map]; exact d.ascending⟩

/-! ## Lookups -/

@[simp] theorem find?_empty (key : String) : (empty : Dictionary α).find? key = none := rfl

theorem find?_insert (d : Dictionary α) (key k : String) (value : α) :
    (d.insert key value).find? k = if k = key then some value else d.find? k :=
  lookup_insertAscending key k value d.entries

theorem find?_map (f : α → β) (d : Dictionary α) (key : String) :
    (d.map f).find? key = (d.find? key).map f := lookup_map_values f key d.entries

/-- Dictionaries with the same lookups are equal. -/
theorem eq_of_find?_eq {d d' : Dictionary α} (same : ∀ key, d.find? key = d'.find? key) :
    d = d' := by
  have entries := eq_of_lookup_eq d.ascending d'.ascending same
  cases d
  cases d'
  cases entries
  rfl

theorem find?_foldl_insert (key : String) : ∀ (entries : List (String × α)) (d : Dictionary α),
    (entries.foldl (fun d e => d.insert e.1 e.2) d).find? key =
      (entries.reverse.lookup key).or (d.find? key)
  | [], _ => rfl
  | (name, value) :: rest, d => by
    rw [List.foldl_cons, find?_foldl_insert key rest, find?_insert, List.reverse_cons,
      List.lookup_append, lookup_cons_eq_ite, Option.or_assoc]
    by_cases h : key = name
    · rw [if_pos h, if_pos h, Option.some_or]
    · rw [if_neg h, if_neg h, List.lookup_nil, Option.none_or]

/-- Of the entries with one name the last one counts. -/
theorem find?_ofList (entries : List (String × α)) (key : String) :
    (ofList entries).find? key = entries.reverse.lookup key := by
  rw [ofList, find?_foldl_insert, find?_empty, Option.or_none]

/-- Distinct names keep their values. -/
theorem find?_ofList_of_mem {entries : List (String × α)} (distinct : (entries.map Prod.fst).Nodup)
    {key : String} {value : α} (h : (key, value) ∈ entries) :
    (ofList entries).find? key = some value := by
  rw [find?_ofList]
  refine lookup_eq_some_of_mem (List.mem_reverse.2 h) fun other ho => ?_
  exact value_eq_of_nodup distinct (List.mem_reverse.1 ho) h

/-- The entries of a dictionary make up the dictionary. -/
theorem ofList_entries (d : Dictionary α) : ofList d.entries = d := by
  refine eq_of_find?_eq fun key => ?_
  have distinct := nodup_of_ascending d.ascending
  cases found : d.find? key with
  | some value => exact find?_ofList_of_mem distinct (mem_of_lookup_eq_some found)
  | none =>
    rw [find?_ofList, List.lookup_eq_none_iff]
    exact fun e he => List.lookup_eq_none_iff.1 found e (List.mem_reverse.1 he)

theorem entries_foldl_insert : ∀ (entries : List (String × α)) (d : Dictionary α),
    (entries.foldl (fun d e => d.insert e.1 e.2) d).entries =
      entries.foldl (fun sorted e => insertAscending e.1 e.2 sorted) d.entries
  | [], _ => rfl
  | e :: rest, d => entries_foldl_insert rest (d.insert e.1 e.2)

/-- The entries of a dictionary are sorted into it one by one. -/
theorem entries_ofList (entries : List (String × α)) : (ofList entries).entries =
    entries.foldl (fun sorted e => insertAscending e.1 e.2 sorted) [] :=
  entries_foldl_insert entries empty

end Dictionary

end DocQuery
