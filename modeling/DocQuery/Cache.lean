/-
# Caches

A bounded map that drops the entry inserted longest ago.  Nothing is ever replaced: the first value
inserted under a key is the one that every later caller gets while the key is present.

Finding and adding are separate steps, because a value is computed between them and other calls may
come in meanwhile.
-/

namespace DocQuery

structure Cache (κ α : Type) where
  capacity : Nat
  /-- The entries in the order of their insertion. -/
  entries : List (κ × α)
  hits : Nat
  misses : Nat

namespace Cache

variable {κ α ε : Type} [BEq κ]

/-- An empty cache; it has room for one entry at least. -/
def ofCapacity (capacity : Nat) : Cache κ α := ⟨max capacity 1, [], 0, 0⟩

def size (c : Cache κ α) : Nat := c.entries.length

def isEmpty (c : Cache κ α) : Bool := c.entries.isEmpty

def keys (c : Cache κ α) : List κ := c.entries.map Prod.fst

def get? (c : Cache κ α) (key : κ) : Option α := c.entries.lookup key

/-- Looks for a key and counts the outcome. -/
def find (c : Cache κ α) (key : κ) : Option α × Cache κ α :=
  match c.get? key with
  | some value => (some value, { c with hits := c.hits + 1 })
  | none => (none, { c with misses := c.misses + 1 })

/-- Drops the oldest entries beyond the capacity. -/
def evict (c : Cache κ α) : Cache κ α :=
  { c with entries := c.entries.drop (c.entries.length - c.capacity) }

/-- Inserts a value unless its key has one by now, and returns the value of the key. -/
def adopt (c : Cache κ α) (key : κ) (value : α) : α × Cache κ α :=
  match c.get? key with
  | some existing => (existing, c)
  | none => (value, evict { c with entries := c.entries ++ [(key, value)] })

/-- Finds the value of a key, or computes and inserts it.  A failure is not remembered. -/
def getOrCompute (c : Cache κ α) (key : κ) (compute : Except ε α) : Except ε α × Cache κ α :=
  match c.find key with
  | (some value, c) => (.ok value, c)
  | (none, c) => match compute with
    | .error e => (.error e, c)
    | .ok value =>
      let (value, c) := c.adopt key value
      (.ok value, c)

/-- Drops all entries; the counts stay. -/
def clear (c : Cache κ α) : Cache κ α := { c with entries := [] }

end Cache

end DocQuery
