/-
# Caches shared by callers

Inside, a cache is a table of values and a queue of their keys behind one lock.  A call takes the
lock to look for its key, computes OUTSIDE of it, and takes it again to put in what it computed,
or to adopt what another call has put in meanwhile.  Calls and clearings come between these steps
in any order.

* **One step.**  `CacheCalls.step_cases` says all that a step does to the table and the queue: it
  leaves both, it empties both, it puts in a key while there is room, or it puts in a key for the
  oldest one.  The fourth case is what eviction comes to: there is never more than one key too
  many (`QueuedCache.evict_of_eq`).
* **Runs.**  By induction the queue lists the keys of the table, each once and the oldest first,
  and there are no more of them than the capacity allows; each call counts as a hit or as a miss
  (`CacheCalls.Sound.run`).
* **Values.**  No step replaces a value, so a value is kept through every stretch of a run in
  which its key is present throughout (`CacheCalls.lookup_run`), and a call that returns a value
  returns the one that is stored (`CacheCalls.lookup_of_step`).

Read along its queue, the table is the list of entries of a `Cache`, and the two make the same
steps (section 2): what is said of `Cache` elsewhere is said of this cache, as long as nothing
comes between the two halves of a call (`CacheCalls.call_toCache`).

The counters have no bound here.
-/
import DocQuery.Cache
import Mathlib.Data.List.AList

namespace DocQuery

/-- The parts of a cache. -/
structure QueuedCache (κ α : Type) where
  capacity : Nat
  table : AList fun _ : κ => α
  /-- The keys of the table in the order of their insertion. -/
  queue : List κ
  hits : Nat
  misses : Nat

namespace QueuedCache

variable {κ α : Type}

def ofCapacity (capacity : Nat) : QueuedCache κ α := ⟨max capacity 1, ∅, [], 0, 0⟩

def size (c : QueuedCache κ α) : Nat := c.table.keys.length

def clear (c : QueuedCache κ α) : QueuedCache κ α := { c with table := ∅, queue := [] }

/-- The queue lists the keys of the table, which is not too large. -/
structure Valid (c : QueuedCache κ α) : Prop where
  keys : c.queue.Perm c.table.keys
  bounded : c.size ≤ c.capacity
  positive : 0 < c.capacity

variable {c : QueuedCache κ α} {key : κ}

theorem valid_ofCapacity (capacity : Nat) : (ofCapacity capacity : QueuedCache κ α).Valid where
  keys := .refl _
  bounded := Nat.zero_le _
  positive := Nat.lt_of_lt_of_le Nat.zero_lt_one (Nat.le_max_right _ _)

namespace Valid

theorem nodup (h : c.Valid) : c.queue.Nodup := h.keys.nodup_iff.2 c.table.keys_nodup

theorem mem_queue (h : c.Valid) : key ∈ c.queue ↔ key ∈ c.table := h.keys.mem_iff

theorem length_queue (h : c.Valid) : c.queue.length = c.size := h.keys.length_eq

theorem clear (h : c.Valid) : c.clear.Valid := ⟨.refl _, Nat.zero_le _, h.positive⟩

end Valid

/-! ## 1. Steps under the lock -/

variable [DecidableEq κ]

/-- Looks for a key and counts the outcome. -/
def find (c : QueuedCache κ α) (key : κ) : Option α × QueuedCache κ α :=
  match c.table.lookup key with
  | some value => (some value, { c with hits := c.hits + 1 })
  | none => (none, { c with misses := c.misses + 1 })

/-- Takes keys from the front of a queue, and their values from the table, as long as the table is
too large. -/
def evict (capacity : Nat) (table : AList fun _ : κ => α) :
    List κ → (AList fun _ : κ => α) × List κ
  | [] => (table, [])
  | oldest :: rest =>
    if capacity < table.keys.length then evict capacity (table.erase oldest) rest
    else (table, oldest :: rest)

/-- Puts in a value unless its key has one by now, and returns the value of the key. -/
def adopt (c : QueuedCache κ α) (key : κ) (value : α) : α × QueuedCache κ α :=
  match c.table.lookup key with
  | some existing => (existing, c)
  | none =>
    let (table, queue) := evict c.capacity (c.table.insert key value) (c.queue ++ [key])
    (value, { c with table, queue })

theorem evict_of_le {capacity : Nat} {table : AList fun _ : κ => α}
    (h : table.keys.length ≤ capacity) : ∀ queue, evict capacity table queue = (table, queue)
  | [] => rfl
  | _ :: _ => if_neg (Nat.not_lt.2 h)

/-- One key too many is taken out at the front. -/
theorem evict_of_eq {capacity : Nat} {table : AList fun _ : κ => α} {oldest : κ}
    (h : table.keys.length = capacity + 1) (hold : oldest ∈ table) (rest : List κ) :
    evict capacity table (oldest :: rest) = (table.erase oldest, rest) := by
  have shorter : (table.erase oldest).keys.length ≤ capacity := by
    rw [AList.keys_erase, List.length_erase_of_mem (AList.mem_keys.1 hold), h]
    exact Nat.le_refl _
  rw [evict, if_pos (h ▸ Nat.lt_succ_self _), evict_of_le shorter]

/-- The cache after a key was put at the end of the queue. -/
def put (c : QueuedCache κ α) (key : κ) (value : α) : QueuedCache κ α :=
  { c with table := c.table.insert key value, queue := c.queue ++ [key] }

/-- The cache after a key was put at the end of the queue and the one at its front taken out. -/
def replace (c : QueuedCache κ α) (oldest key : κ) (value : α) : QueuedCache κ α :=
  { c with
    table := (c.table.insert key value).erase oldest
    queue := c.queue.tail ++ [key] }

theorem keys_insert (value : α) (h : key ∉ c.table) :
    (c.table.insert key value).keys = key :: c.table.keys := by
  rw [AList.keys_insert, List.erase_of_not_mem fun hmem => h (AList.mem_keys.2 hmem)]

/-- **What adopting does.**  It finds the key, or puts it in while there is room, or puts it in for
the oldest one, which is another. -/
theorem Valid.adopt_cases (h : c.Valid) (key : κ) (value : α) :
    (∃ existing, c.table.lookup key = some existing ∧ c.adopt key value = (existing, c)) ∨
    (key ∉ c.table ∧ c.size < c.capacity ∧ c.adopt key value = (value, c.put key value)) ∨
    (key ∉ c.table ∧ c.size = c.capacity ∧ ∃ oldest rest, c.queue = oldest :: rest ∧
      oldest ≠ key ∧ c.adopt key value = (value, c.replace oldest key value)) := by
  cases found : c.table.lookup key with
  | some existing => exact .inl ⟨existing, rfl, by simp only [adopt, found]⟩
  | none =>
    have absent : key ∉ c.table := AList.lookup_eq_none.1 found
    have grown : (c.table.insert key value).keys.length = c.size + 1 :=
      congrArg List.length (keys_insert value absent)
    rcases Nat.lt_or_eq_of_le h.bounded with room | full
    · refine .inr (.inl ⟨absent, room, ?_⟩)
      have fits : (c.table.insert key value).keys.length ≤ c.capacity := grown ▸ room
      simp only [adopt, found, evict_of_le fits, put]
    · refine .inr (.inr ⟨absent, full, ?_⟩)
      have nonempty : c.queue ≠ [] := by
        rw [← List.length_pos_iff, h.length_queue, full]
        exact h.positive
      obtain ⟨oldest, rest, hqueue⟩ := List.exists_cons_of_ne_nil nonempty
      have hold : oldest ∈ c.table := h.mem_queue.1 (hqueue ▸ List.mem_cons_self)
      have other : oldest ≠ key := fun same => absent (same ▸ hold)
      refine ⟨oldest, rest, hqueue, other, ?_⟩
      have evicted := evict_of_eq (grown.trans (congrArg (· + 1) full))
        ((AList.mem_insert _).2 (.inr hold)) (rest ++ [key])
      simp only [adopt, found, hqueue, List.cons_append, evicted, replace, List.tail_cons]

theorem Valid.put (h : c.Valid) (absent : key ∉ c.table) (room : c.size < c.capacity) (value : α) :
    (c.put key value).Valid where
  keys := by
    show (c.queue ++ [key]).Perm (c.table.insert key value).keys
    rw [keys_insert value absent]
    exact (List.perm_append_singleton key c.queue).trans (h.keys.cons key)
  bounded := by
    show (c.table.insert key value).keys.length ≤ c.capacity
    rw [keys_insert value absent]
    exact room
  positive := h.positive

theorem Valid.replace (h : c.Valid) (absent : key ∉ c.table) {oldest : κ} {rest : List κ}
    (hqueue : c.queue = oldest :: rest) (other : oldest ≠ key) (value : α) :
    (c.replace oldest key value).Valid := by
  have hold : oldest ∈ c.table := h.mem_queue.1 (hqueue ▸ List.mem_cons_self)
  have keys : ((c.table.insert key value).erase oldest).keys = key :: c.table.keys.erase oldest := by
    rw [AList.keys_erase, keys_insert value absent, List.erase_cons_tail]
    simpa using Ne.symm other
  refine ⟨?_, ?_, h.positive⟩
  · show (c.queue.tail ++ [key]).Perm ((c.table.insert key value).erase oldest).keys
    have remaining : rest.Perm (c.table.keys.erase oldest) := by
      have := h.keys.erase oldest
      rwa [hqueue, List.erase_cons_head] at this
    rw [keys, hqueue, List.tail_cons]
    exact (List.perm_append_singleton key rest).trans (remaining.cons key)
  · show ((c.table.insert key value).erase oldest).keys.length ≤ c.capacity
    rw [keys, List.length_cons, List.length_erase_of_mem (AList.mem_keys.1 hold)]
    have := h.bounded
    have : 0 < c.table.keys.length := List.length_pos_of_mem (AList.mem_keys.1 hold)
    unfold size at *
    omega

theorem Valid.adopt (h : c.Valid) (key : κ) (value : α) : (c.adopt key value).2.Valid := by
  rcases h.adopt_cases key value with
    ⟨_, -, adopted⟩ | ⟨absent, room, adopted⟩ | ⟨absent, -, oldest, rest, hqueue, other, adopted⟩
  · rw [adopted]
    exact h
  · rw [adopted]
    exact h.put absent room value
  · rw [adopted]
    exact h.replace absent hqueue other value

theorem Valid.lookup_adopt (h : c.Valid) (key : κ) (value : α) :
    (c.adopt key value).2.table.lookup key = some (c.adopt key value).1 := by
  rcases h.adopt_cases key value with
    ⟨_, found, adopted⟩ | ⟨-, -, adopted⟩ | ⟨-, -, oldest, rest, -, other, adopted⟩
  · rw [adopted]
    exact found
  · rw [adopted]
    exact AList.lookup_insert _
  · rw [adopted]
    exact (AList.lookup_erase_ne other.symm).trans (AList.lookup_insert _)

theorem Valid.find (h : c.Valid) (key : κ) : (c.find key).2.Valid := by
  unfold QueuedCache.find
  split <;> exact ⟨h.keys, h.bounded, h.positive⟩

/-! ## 2. The table and the queue as one list -/

/-- The entries of a table in the order of a queue. -/
def entriesAlong (table : AList fun _ : κ => α) (queue : List κ) : List (κ × α) :=
  queue.filterMap fun key => (table.lookup key).map (key, ·)

/-- The cache that keeps both in one list. -/
def toCache (c : QueuedCache κ α) : Cache κ α :=
  ⟨c.capacity, entriesAlong c.table c.queue, c.hits, c.misses⟩

theorem lookup_entriesAlong (table : AList fun _ : κ => α) (key : κ) : ∀ queue : List κ,
    (entriesAlong table queue).lookup key = if key ∈ queue then table.lookup key else none
  | [] => rfl
  | k :: rest => by
    have ih := lookup_entriesAlong table key rest
    unfold entriesAlong at ih ⊢
    by_cases same : key = k
    · subst same
      rw [if_pos List.mem_cons_self, List.filterMap_cons]
      cases found : table.lookup key with
      | some value => simp only [Option.map_some, List.lookup_cons, beq_self_eq_true]
      | none => simp only [Option.map_none, ih, found, ite_self]
    · have differ : (key == k) = false := beq_eq_false_iff_ne.2 same
      rw [List.filterMap_cons]
      cases table.lookup k with
      | some value =>
        simp only [Option.map_some, List.lookup_cons, differ, ih, List.mem_cons, same, false_or]
      | none => simp only [Option.map_none, ih, List.mem_cons, same, false_or]

theorem length_entriesAlong {table : AList fun _ : κ => α} : ∀ {queue : List κ},
    (∀ key ∈ queue, key ∈ table) → (entriesAlong table queue).length = queue.length
  | [], _ => rfl
  | key :: rest, h => by
    obtain ⟨value, found⟩ := Option.isSome_iff_exists.1
      (AList.lookup_isSome.2 (h key List.mem_cons_self))
    have ih := length_entriesAlong fun k hk => h k (List.mem_cons_of_mem _ hk)
    unfold entriesAlong at ih ⊢
    rw [List.filterMap_cons, found]
    exact congrArg (· + 1) ih

/-- Only the keys of the queue are looked up. -/
theorem entriesAlong_congr {table table' : AList fun _ : κ => α} {queue : List κ}
    (h : ∀ key ∈ queue, table.lookup key = table'.lookup key) :
    entriesAlong table queue = entriesAlong table' queue :=
  List.filterMap_congr fun key hkey => by rw [h key hkey]

namespace Valid

theorem lookup_toCache (h : c.Valid) (key : κ) : c.toCache.get? key = c.table.lookup key := by
  show (entriesAlong c.table c.queue).lookup key = _
  rw [lookup_entriesAlong]
  split
  · rfl
  · next hkey => exact (AList.lookup_eq_none.2 fun hmem => hkey (h.mem_queue.2 hmem)).symm

theorem find_toCache (h : c.Valid) (key : κ) :
    c.toCache.find key = ((c.find key).1, (c.find key).2.toCache) := by
  unfold Cache.find QueuedCache.find
  rw [h.lookup_toCache]
  cases c.table.lookup key <;> rfl

/-- The entries after a key was put in. -/
theorem entries_put (h : c.Valid) (absent : key ∉ c.table) (value : α) :
    entriesAlong (c.table.insert key value) (c.queue ++ [key]) =
      entriesAlong c.table c.queue ++ [(key, value)] := by
  have others : entriesAlong (c.table.insert key value) c.queue = entriesAlong c.table c.queue :=
    entriesAlong_congr fun k hk =>
      AList.lookup_insert_ne fun same => absent (same ▸ h.mem_queue.1 hk)
  unfold entriesAlong at others ⊢
  rw [List.filterMap_append, others, List.filterMap_cons, AList.lookup_insert]
  rfl

/-- The entries after a key was put in for the oldest one. -/
theorem entries_replace (h : c.Valid) (absent : key ∉ c.table) {oldest : κ} {rest : List κ}
    (hqueue : c.queue = oldest :: rest) (other : oldest ≠ key) (value : α) :
    entriesAlong ((c.table.insert key value).erase oldest) (c.queue.tail ++ [key]) =
      (entriesAlong c.table c.queue).tail ++ [(key, value)] := by
  have distinct : oldest ∉ rest := (List.nodup_cons.1 (hqueue ▸ h.nodup)).1
  obtain ⟨old, found⟩ := Option.isSome_iff_exists.1
    (AList.lookup_isSome.2 (h.mem_queue.1 (hqueue ▸ List.mem_cons_self)))
  have others : entriesAlong ((c.table.insert key value).erase oldest) rest =
      entriesAlong c.table rest := entriesAlong_congr fun k hk => by
    have present : k ∈ c.table := h.mem_queue.1 (hqueue ▸ List.mem_cons_of_mem _ hk)
    have newer : k ≠ oldest := fun same => distinct (same ▸ hk)
    have older : k ≠ key := fun same => absent (same ▸ present)
    rw [AList.lookup_erase_ne newer, AList.lookup_insert_ne older]
  unfold entriesAlong at others ⊢
  rw [hqueue, List.tail_cons, List.filterMap_append, others, List.filterMap_cons,
    List.filterMap_cons, AList.lookup_erase_ne other.symm, AList.lookup_insert, found]
  rfl

theorem adopt_toCache (h : c.Valid) (key : κ) (value : α) :
    c.toCache.adopt key value = ((c.adopt key value).1, (c.adopt key value).2.toCache) := by
  have length : (entriesAlong c.table c.queue).length = c.size := by
    rw [length_entriesAlong fun k hk => h.mem_queue.1 hk, h.length_queue]
  unfold Cache.adopt
  rw [h.lookup_toCache]
  rcases h.adopt_cases key value with
    ⟨existing, found, adopted⟩ | ⟨absent, room, adopted⟩ |
      ⟨absent, full, oldest, rest, hqueue, other, adopted⟩
  · rw [adopted, found]
  · have stays : c.size + 1 - c.capacity = 0 := Nat.sub_eq_zero_of_le room
    rw [adopted, AList.lookup_eq_none.2 absent]
    simp only [toCache, QueuedCache.put, Cache.evict, h.entries_put absent value,
      List.length_append, length, List.length_singleton, stays, List.drop_zero]
  · have one : c.size + 1 - c.capacity = 1 := by omega
    have nonempty : entriesAlong c.table c.queue ≠ [] := by
      rw [← List.length_pos_iff, length, full]
      exact h.positive
    rw [adopted, AList.lookup_eq_none.2 absent]
    simp only [toCache, QueuedCache.replace, Cache.evict, h.entries_replace absent hqueue other value,
      List.length_append, length, List.length_singleton, one, List.drop_one,
      List.tail_append_of_ne_nil nonempty]

end Valid

/-- The steps under the lock are those of the cache as one list. -/
structure Mirrored (c : QueuedCache κ α) : Prop where
  find : ∀ key, c.toCache.find key = ((c.find key).1, (c.find key).2.toCache)
  adopt : ∀ key value,
    c.toCache.adopt key value = ((c.adopt key value).1, (c.adopt key value).2.toCache)
  clear : c.toCache.clear = c.clear.toCache

theorem Valid.mirrored (h : c.Valid) : c.Mirrored := ⟨h.find_toCache, h.adopt_toCache, rfl⟩

end QueuedCache

/-! ## 3. Calls -/

/-- A cache with the calls that are under way. -/
structure CacheCalls (κ α : Type) where
  cache : QueuedCache κ α
  /-- The keys of the calls that have found nothing and compute, the latest call first. -/
  computing : List κ

namespace CacheCalls

variable {κ α ε : Type}

def start (capacity : Nat) : CacheCalls κ α := ⟨.ofCapacity capacity, []⟩

/-- The state after a run in which the keys `inserted` were put in and `lookups` calls began. -/
structure Sound (capacity : Nat) (inserted : List κ) (lookups : Nat) (s : CacheCalls κ α) : Prop where
  valid : s.cache.Valid
  capacity : s.cache.capacity = max capacity 1
  /-- The queue is the latest part of what was put in. -/
  recent : s.cache.queue <:+ inserted
  counted : s.cache.hits + s.cache.misses = lookups

theorem sound_start (capacity : Nat) : (start capacity : CacheCalls κ α).Sound capacity [] 0 :=
  ⟨QueuedCache.valid_ofCapacity capacity, rfl, List.suffix_rfl, rfl⟩

/-- What may happen next. -/
inductive Event (κ α ε : Type) where
  /-- A call begins and looks for its key. -/
  | begin (key : κ)
  /-- The computation of a call ends, and the call with it. -/
  | finish (call : Nat) (computed : Except ε α)
  | clear

def Event.isLookup : Event κ α ε → Bool
  | .begin _ => true
  | _ => false

variable [DecidableEq κ]

/-- One step, with the answer of the call that returns by it. -/
def step (s : CacheCalls κ α) : Event κ α ε → Option (κ × Except ε α) × CacheCalls κ α
  | .begin key => match s.cache.find key with
    | (some value, cache) => (some (key, .ok value), { s with cache })
    | (none, cache) => (none, ⟨cache, key :: s.computing⟩)
  | .finish call computed => match s.computing[call]? with
    | none => (none, s)
    | some key => match computed with
      | .error e => (some (key, .error e), { s with computing := s.computing.eraseIdx call })
      | .ok value =>
        let (value, cache) := s.cache.adopt key value
        (some (key, .ok value), ⟨cache, s.computing.eraseIdx call⟩)
  | .clear => (none, { s with cache := s.cache.clear })

def run (s : CacheCalls κ α) (events : List (Event κ α ε)) : CacheCalls κ α :=
  events.foldl (fun s e => (s.step e).2) s

/-- The key that a step puts into the cache. -/
def inserted? (s : CacheCalls κ α) : Event κ α ε → Option κ
  | .finish call (.ok _) => s.computing[call]?.filter fun key => decide (key ∉ s.cache.table)
  | _ => none

/-- The keys that the steps of a run put in, in their order. -/
def insertions (s : CacheCalls κ α) : List (Event κ α ε) → List κ
  | [] => []
  | e :: rest => (s.inserted? e).toList ++ (s.step e).2.insertions rest

/-- A call that nothing comes between. -/
def call (s : CacheCalls κ α) (key : κ) (computed : Except ε α) :
    Option (κ × Except ε α) × CacheCalls κ α :=
  match s.step (.begin key : Event κ α ε) with
  | (some answer, s) => (some answer, s)
  | (none, s) => s.step (.finish 0 computed)

variable {s : CacheCalls κ α} {event : Event κ α ε} {key : κ}

theorem run_cons (s : CacheCalls κ α) (event : Event κ α ε) (rest : List (Event κ α ε)) :
    s.run (event :: rest) = (s.step event).2.run rest := rfl

/-- **What a step does to the table and the queue.**  It leaves both, it empties both, it puts in a
key while there is room, or it puts in a key for the oldest one. -/
theorem step_cases (h : s.cache.Valid) (event : Event κ α ε) :
    (s.inserted? event = none ∧
      ∃ hits misses, (s.step event).2.cache = { s.cache with hits, misses }) ∨
    (event = .clear ∧ (s.step event).2.cache = s.cache.clear) ∨
    (∃ key value, s.inserted? event = some key ∧ key ∉ s.cache.table ∧
      s.cache.size < s.cache.capacity ∧ (∃ call, event = .finish call (.ok value)) ∧
      (s.step event).2.cache = s.cache.put key value) ∨
    (∃ key value oldest rest, s.inserted? event = some key ∧ key ∉ s.cache.table ∧
      s.cache.size = s.cache.capacity ∧ s.cache.queue = oldest :: rest ∧ oldest ≠ key ∧
      (∃ call, event = .finish call (.ok value)) ∧
      (s.step event).2.cache = s.cache.replace oldest key value) := by
  cases event with
  | begin key =>
    refine .inl ⟨rfl, ?_⟩
    simp only [step, QueuedCache.find]
    cases s.cache.table.lookup key <;> exact ⟨_, _, rfl⟩
  | clear => exact .inr (.inl ⟨rfl, rfl⟩)
  | finish call computed =>
    cases found : s.computing[call]? with
    | none =>
      have nothing : s.inserted? (.finish call computed) = none := by
        cases computed <;> simp only [inserted?, found, Option.filter_none]
      exact .inl ⟨nothing, s.cache.hits, s.cache.misses, by simp only [step, found]⟩
    | some key => cases computed with
      | error e => exact .inl ⟨rfl, s.cache.hits, s.cache.misses, by simp only [step, found]⟩
      | ok value =>
        have cache : (s.step (.finish call (.ok value) : Event κ α ε)).2.cache =
            (s.cache.adopt key value).2 := by simp only [step, found]
        have inserted : s.inserted? (.finish call (.ok value) : Event κ α ε) =
            if key ∉ s.cache.table then some key else none := by
          simp only [inserted?, found, Option.filter_some, decide_eq_true_eq]
        rw [cache, inserted]
        rcases h.adopt_cases key value with
          ⟨existing, present, adopted⟩ | ⟨absent, room, adopted⟩ |
            ⟨absent, full, oldest, rest, hqueue, other, adopted⟩
        · have present : key ∈ s.cache.table := AList.lookup_isSome.1 (Option.isSome_of_eq_some present)
          rw [adopted, if_neg (not_not_intro present)]
          exact .inl ⟨rfl, _, _, rfl⟩
        · rw [adopted, if_pos absent]
          exact .inr (.inr (.inl ⟨key, value, rfl, absent, room, ⟨call, rfl⟩, rfl⟩))
        · rw [adopted, if_pos absent]
          exact .inr (.inr (.inr
            ⟨key, value, oldest, rest, rfl, absent, full, hqueue, other, ⟨call, rfl⟩, rfl⟩))

theorem step_counts (s : CacheCalls κ α) (event : Event κ α ε) :
    (s.step event).2.cache.hits + (s.step event).2.cache.misses =
      s.cache.hits + s.cache.misses + [event].countP Event.isLookup := by
  cases event with
  | begin key =>
    simp only [step, QueuedCache.find]
    cases s.cache.table.lookup key with
    | some value => exact Nat.add_right_comm _ _ _
    | none => exact (Nat.add_assoc _ _ _).symm
  | clear => rfl
  | finish call computed =>
    simp only [step]
    cases s.computing[call]? with
    | none => rfl
    | some key => cases computed with
      | error e => rfl
      | ok value =>
        simp only [QueuedCache.adopt]
        cases s.cache.table.lookup key <;> rfl

/-- A call that returns a value returns the one that is stored. -/
theorem lookup_of_step (h : s.cache.Valid) {value : α}
    (answer : (s.step event).1 = some (key, .ok value)) :
    (s.step event).2.cache.table.lookup key = some value := by
  cases event with
  | begin k =>
    simp only [step, QueuedCache.find] at answer ⊢
    cases found : s.cache.table.lookup k with
    | some v =>
      simp only [found, Option.some.injEq, Prod.mk.injEq, Except.ok.injEq] at answer
      obtain ⟨rfl, rfl⟩ := answer
      exact found
    | none => simp only [found, reduceCtorEq] at answer
  | clear => simp only [step, reduceCtorEq] at answer
  | finish call computed =>
    simp only [step] at answer ⊢
    cases found : s.computing[call]? with
    | none => simp only [found, reduceCtorEq] at answer
    | some k => cases computed with
      | error e => simp only [found, Option.some.injEq, Prod.mk.injEq, reduceCtorEq, and_false] at answer
      | ok v =>
        simp only [found, Option.some.injEq, Prod.mk.injEq, Except.ok.injEq] at answer ⊢
        obtain ⟨rfl, rfl⟩ := answer
        exact h.lookup_adopt k v

/-! ## 4. Runs -/

variable {capacity lookups : Nat} {inserted : List κ}

theorem Sound.step (h : s.Sound capacity inserted lookups) (event : Event κ α ε) :
    (s.step event).2.Sound capacity (inserted ++ (s.inserted? event).toList)
      (lookups + [event].countP Event.isLookup) := by
  have counted := (s.step_counts event).trans (congrArg (· + _) h.counted)
  obtain ⟨before, split⟩ := h.recent
  rcases step_cases h.valid event with
    ⟨inserts, hits, misses, cache⟩ | ⟨rfl, cache⟩ |
      ⟨key, value, inserts, absent, room, -, cache⟩ |
      ⟨key, value, oldest, rest, inserts, absent, full, queue, other, -, cache⟩
  · rw [inserts]
    refine ⟨?_, ?_, ?_, counted⟩ <;> rw [cache]
    · exact ⟨h.valid.keys, h.valid.bounded, h.valid.positive⟩
    · exact h.capacity
    · exact ⟨before, split.trans (List.append_nil _).symm⟩
  · refine ⟨?_, ?_, ?_, counted⟩ <;> rw [cache]
    · exact h.valid.clear
    · exact h.capacity
    · exact List.nil_suffix
  · rw [inserts]
    refine ⟨?_, ?_, ?_, counted⟩ <;> rw [cache]
    · exact h.valid.put absent room value
    · exact h.capacity
    · refine ⟨before, ?_⟩
      rw [← split, List.append_assoc]
      rfl
  · rw [inserts]
    refine ⟨?_, ?_, ?_, counted⟩ <;> rw [cache]
    · exact h.valid.replace absent queue other value
    · exact h.capacity
    · refine ⟨before ++ [oldest], ?_⟩
      simp only [QueuedCache.replace, ← split, queue, List.tail_cons, List.append_assoc,
        List.cons_append, List.nil_append, Option.toList_some]

theorem Sound.run : ∀ (events : List (Event κ α ε)) {s : CacheCalls κ α} {inserted : List κ}
    {lookups : Nat}, s.Sound capacity inserted lookups →
    (s.run events).Sound capacity (inserted ++ s.insertions events)
      (lookups + events.countP Event.isLookup)
  | [], _, _, _, h => by
    rw [insertions, List.append_nil]
    exact h
  | event :: rest, s, inserted, lookups, h => by
    have ih := (h.step event).run rest
    rw [List.append_assoc, Nat.add_assoc, ← List.countP_append] at ih
    exact ih

/-- What a step keeps and what it takes out. -/
structure StepFits (s : CacheCalls κ α) (event : Event κ α ε) : Prop where
  /-- The value of a key stays as long as the key is present. -/
  stable : ∀ key value after, s.cache.table.lookup key = some value →
    (s.step event).2.cache.table.lookup key = some after → after = value
  /-- A call that returns a value returns the one that is stored. -/
  answered : ∀ key value, (s.step event).1 = some (key, .ok value) →
    (s.step event).2.cache.table.lookup key = some value
  failed : ∀ call e, event = .finish call (.error e) →
    (s.step event).2.cache.table = s.cache.table ∧ (s.step event).2.cache.queue = s.cache.queue
  /-- While there is room nothing is taken out for a new key. -/
  room : ∀ key, s.inserted? event = some key → s.cache.size < s.cache.capacity →
    (s.step event).2.cache.queue = s.cache.queue ++ [key] ∧
    ∀ k, k ∈ (s.step event).2.cache.table ↔ k = key ∨ k ∈ s.cache.table
  /-- When there is none the oldest key is, and only that. -/
  full : ∀ key, s.inserted? event = some key → s.cache.size = s.cache.capacity →
    ∃ oldest rest, s.cache.queue = oldest :: rest ∧ oldest ≠ key ∧
      (s.step event).2.cache.queue = rest ++ [key] ∧
      ∀ k, k ∈ (s.step event).2.cache.table ↔ k = key ∨ k ∈ s.cache.table ∧ k ≠ oldest

theorem stepFits (h : s.cache.Valid) (event : Event κ α ε) : s.StepFits event where
  stable key value after found found' := by
    have present : key ∈ s.cache.table := AList.lookup_isSome.1 (Option.isSome_of_eq_some found)
    rcases step_cases h event with
      ⟨-, hits, misses, cache⟩ | ⟨-, cache⟩ | ⟨k, v, -, absent, -, -, cache⟩ |
        ⟨k, v, oldest, rest, -, absent, -, -, -, -, cache⟩ <;> rw [cache] at found'
    · exact Option.some.inj (found'.symm.trans found)
    · cases found'
    · have other : key ≠ k := fun same => absent (same ▸ present)
      rw [QueuedCache.put, AList.lookup_insert_ne other, found] at found'
      exact (Option.some.inj found').symm
    · have other : key ≠ k := fun same => absent (same ▸ present)
      have newer : key ≠ oldest := by
        rintro rfl
        rw [QueuedCache.replace, AList.lookup_erase] at found'
        cases found'
      rw [QueuedCache.replace, AList.lookup_erase_ne newer, AList.lookup_insert_ne other, found]
        at found'
      exact (Option.some.inj found').symm
  answered key value answer := lookup_of_step h answer
  failed call e hevent := by
    rcases step_cases h event with
      ⟨-, hits, misses, cache⟩ | ⟨cleared, -⟩ | ⟨_, _, -, -, -, ⟨_, computed⟩, -⟩ |
        ⟨_, _, _, _, -, -, -, -, -, ⟨_, computed⟩, -⟩
    · rw [cache]
      exact ⟨rfl, rfl⟩
    · cases hevent.symm.trans cleared
    · cases hevent.symm.trans computed
    · cases hevent.symm.trans computed
  room key inserts room := by
    rcases step_cases h event with
      ⟨nothing, -⟩ | ⟨rfl, -⟩ | ⟨k, value, inserts', -, -, -, cache⟩ |
        ⟨_, _, _, _, -, -, full, -⟩
    · cases inserts.symm.trans nothing
    · cases inserts
    · cases inserts.symm.trans inserts'
      rw [cache]
      exact ⟨rfl, fun k => AList.mem_insert _⟩
    · exact absurd full (Nat.ne_of_lt room)
  full key inserts full := by
    rcases step_cases h event with
      ⟨nothing, -⟩ | ⟨rfl, -⟩ | ⟨_, _, -, -, room, -⟩ |
        ⟨k, value, oldest, rest, inserts', -, -, queue, other, -, cache⟩
    · cases inserts.symm.trans nothing
    · cases inserts
    · exact absurd full (Nat.ne_of_lt room)
    · cases inserts.symm.trans inserts'
      refine ⟨oldest, rest, queue, other, ?_, ?_⟩
      · rw [cache, QueuedCache.replace, queue, List.tail_cons]
      · intro k
        rw [cache, QueuedCache.replace, AList.mem_erase, AList.mem_insert]
        constructor
        · rintro ⟨newer, rfl | present⟩
          · exact .inl rfl
          · exact .inr ⟨present, newer⟩
        · rintro (rfl | ⟨present, newer⟩)
          · exact ⟨other.symm, .inl rfl⟩
          · exact ⟨newer, .inr present⟩

/-- A value is kept through every stretch of a run in which its key is present throughout. -/
theorem lookup_run : ∀ {later : List (Event κ α ε)} {s : CacheCalls κ α} {inserted : List κ}
    {lookups : Nat}, s.Sound capacity inserted lookups →
    (∀ sofar, sofar <+: later → key ∈ (s.run sofar).cache.table) →
    (s.run later).cache.table.lookup key = s.cache.table.lookup key
  | [], _, _, _, _, _ => rfl
  | event :: rest, s, _, _, h, present => by
    obtain ⟨value, found⟩ := Option.isSome_iff_exists.1
      (AList.lookup_isSome.2 (present [] List.nil_prefix))
    obtain ⟨after, found'⟩ := Option.isSome_iff_exists.1
      (AList.lookup_isSome.2 (present [event] (List.prefix_append [event] rest)))
    have ih := lookup_run (h.step event) fun sofar hsofar =>
      present (event :: sofar) ((List.prefix_cons_inj event).2 hsofar)
    have same := (stepFits h.valid event).stable key value after found found'
    rw [run_cons, ih]
    exact (found'.trans (congrArg some same)).trans found.symm

/-- A call that nothing comes between is a request to the cache as one list. -/
theorem call_toCache (h : s.cache.Valid) (key : κ) (computed : Except ε α) :
    (s.call key computed).1 = some (key, (s.cache.toCache.getOrCompute key computed).1) ∧
    (s.call key computed).2.cache.toCache = (s.cache.toCache.getOrCompute key computed).2 := by
  have looked := h.find_toCache key
  unfold QueuedCache.find at looked
  cases found : s.cache.table.lookup key with
  | some value =>
    simp only [found] at looked
    simp only [call, step, QueuedCache.find, found, Cache.getOrCompute, looked, and_self]
  | none =>
    simp only [found] at looked
    cases computed with
    | error e =>
      simp only [call, step, QueuedCache.find, found, Cache.getOrCompute, looked,
        List.getElem?_cons_zero, and_self]
    | ok value =>
      have missed : { s.cache with misses := s.cache.misses + 1 }.Valid :=
        ⟨h.keys, h.bounded, h.positive⟩
      have adopted := missed.adopt_toCache key value
      simp only [call, step, QueuedCache.find, found, Cache.getOrCompute, looked,
        List.getElem?_cons_zero, adopted, and_self]

/-- **However calls and clearings interleave, the parts of a cache stay in step.**  The queue lists
the keys of the table, each once and in the order of their insertions, and there are no more of them
than the capacity allows; each call counts as a hit or as a miss.  Every step is as `StepFits` says, a
value stays as long as its key, and calls that nothing comes between are requests to a `Cache`. -/
theorem calls_keep_cache (capacity : Nat) (events : List (Event κ α ε)) :
    let s : CacheCalls κ α := (start capacity).run events
    (s.cache.queue.Nodup ∧ (∀ key, key ∈ s.cache.queue ↔ key ∈ s.cache.table) ∧
      s.cache.queue <:+ (start capacity).insertions events) ∧
    (s.cache.capacity = max capacity 1 ∧ s.cache.size ≤ max capacity 1) ∧
    s.cache.hits + s.cache.misses = events.countP Event.isLookup ∧
    (∀ event : Event κ α ε, s.StepFits event) ∧
    (∀ key (later : List (Event κ α ε)),
      (∀ sofar, sofar <+: later → key ∈ (s.run sofar).cache.table) →
      (s.run later).cache.table.lookup key = s.cache.table.lookup key) ∧
    s.cache.Mirrored ∧
    ∀ key (computed : Except ε α),
      (s.call key computed).1 = some (key, (s.cache.toCache.getOrCompute key computed).1) ∧
      (s.call key computed).2.cache.toCache = (s.cache.toCache.getOrCompute key computed).2 := by
  intro s
  have sound : s.Sound capacity ((start capacity).insertions events)
      (events.countP Event.isLookup) := by
    have := (sound_start (κ := κ) (α := α) capacity).run events
    rwa [List.nil_append, Nat.zero_add] at this
  have valid := sound.valid
  refine ⟨⟨valid.nodup, fun _ => valid.mem_queue, sound.recent⟩,
    ⟨sound.capacity, sound.capacity ▸ valid.bounded⟩, sound.counted, stepFits valid,
    fun key later => lookup_run sound, valid.mirrored, call_toCache valid⟩

end CacheCalls

end DocQuery
