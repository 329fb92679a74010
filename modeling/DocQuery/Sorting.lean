/-
# Sorting

Stable sorting by a comparison, in the steps of the sort that the store is built on.  The sort moves
positions, and all it asks is whether the element at one position is less than that at another, so
what it does depends on these answers only.

* Up to 20 positions are inserted one after the other.
* Up to 64 are cut into runs and the runs merged, neighbours in a balanced tree.  A run is one that
  is there already, if it is long enough, and otherwise up to 32 positions, which are sorted in two
  halves.
* In longer lists what is not a run already is left unsorted at first.  Unsorted neighbours are put
  together as they are, and sorted by partitions when they come to be merged with a run.

If the comparison is a total preorder on the elements, then this is their one stable order.  If it
is not, then the order is whatever these steps make of it, and from 21 elements on there may be
none: halves are merged from both ends at once, and where the two passes do not meet the sort fails.
-/

namespace DocQuery

namespace Sorting

variable {n : Nat} (less : Fin n → Fin n → Bool)

/-! ## 1. Insertion -/

/-- Puts a position behind those of a descending list that it is less than. -/
def insertDescending (i : Fin n) : List (Fin n) → List (Fin n)
  | [] => [i]
  | j :: rest => if less i j then j :: insertDescending i rest else i :: j :: rest

/-- Inserts positions into an ascending list, each behind what is not greater. -/
def insertAll (sorted positions : List (Fin n)) : List (Fin n) :=
  (positions.foldl (fun descending i => insertDescending less i descending) sorted.reverse).reverse

/-! ## 2. Short lists -/

def sortPair (i j : Fin n) : Fin n × Fin n := if less j i then (j, i) else (i, j)

/-- Four positions in order, by five questions. -/
def sortFour : List (Fin n) → List (Fin n)
  | [p, q, r, s] =>
    let (a, b) := sortPair less p q
    let (c, d) := sortPair less r s
    -- the least, two that are still to be compared, and the greatest
    let (first, x, y, last) := match less c a, less d b with
      | false, false => (a, b, c, d)
      | false, true => (a, c, d, b)
      | true, false => (c, a, b, d)
      | true, true => (c, a, d, b)
    let (x, y) := sortPair less x y
    [first, x, y, last]
  | positions => positions

/-- Takes so many heads of two lists, from the left one where `left` says so.  Gives what it took
and what it left of each. -/
def draw (left : Fin n → Fin n → Bool) :
    Nat → List (Fin n) → List (Fin n) → List (Fin n) × List (Fin n) × List (Fin n)
  | count + 1, a :: as, b :: bs =>
    if left a b then
      let (taken, rest) := draw left count as (b :: bs)
      (a :: taken, rest)
    else
      let (taken, rest) := draw left count (a :: as) bs
      (b :: taken, rest)
  | _, as, bs => ([], as, bs)

/-- Merges two halves, of which the second may have one position more: the smaller positions from
the front and at the same time the greater ones from the back, each pass as many as the first half
has.  Without a result the passes did not meet: one of them went over what the other had taken. -/
def mergeHalves (as bs : List (Fin n)) : Option (List (Fin n)) :=
  let (front, frontAs, frontBs) := draw (fun a b => !less b a) as.length as bs
  let (back, backAs, backBs) := draw (fun a b => less b a) as.length as.reverse bs.reverse
  -- of an odd number one is left, on the side that the passes have not gone through
  let (middle, frontAs, frontBs) :=
    if as.length = bs.length then ([], frontAs, frontBs)
    else if as.length < frontAs.length + backAs.length then (frontAs.take 1, frontAs.drop 1, frontBs)
    else (frontBs.take 1, frontAs, frontBs.drop 1)
  if frontAs.length + backAs.length = as.length ∧ frontBs.length + backBs.length = bs.length then
    some (front ++ middle ++ back.reverse)
  else none

/-- Begins to sort a half of so many positions: gives a sorted beginning and the rest.  Small
elements are sorted by eight. -/
def beginHalf (elementSize length : Nat) (half : List (Fin n)) :
    Option (List (Fin n) × List (Fin n)) :=
  if elementSize ≤ 16 ∧ 16 ≤ length then
    (mergeHalves less (sortFour less (half.take 4)) (sortFour less ((half.drop 4).take 4))).map
      (·, half.drop 8)
  else if 8 ≤ length then some (sortFour less (half.take 4), half.drop 4)
  else some (half.take 1, half.drop 1)

/-- Sorts up to 32 positions: sorts the halves and merges them. -/
def sortShort (elementSize : Nat) (positions : List (Fin n)) : Option (List (Fin n)) :=
  if positions.length < 2 then some positions
  else do
    let half := positions.length / 2
    let (as, as') ← beginHalf less elementSize positions.length (positions.take half)
    let (bs, bs') ← beginHalf less elementSize positions.length (positions.drop half)
    mergeHalves less (insertAll less as as') (insertAll less bs bs')

/-! ## 3. Runs -/

/-- A piece of the list that is sorted, or is still as it was. -/
structure Run (n : Nat) where
  positions : List (Fin n)
  isSorted : Bool

/-- The positions that continue a run. -/
def continuation (continues : Fin n → Fin n → Bool) (last : Fin n) : List (Fin n) → List (Fin n)
  | [] => []
  | next :: rest => if continues last next then next :: continuation continues next rest else []

/-- The run at the beginning of a list, in ascending order.  Its first two positions say whether it
descends; a descending run has no equal elements, so that it may be turned round. -/
def firstRun : List (Fin n) → List (Fin n)
  | i :: j :: rest =>
    if less j i then (i :: continuation (fun last next => less next last) i (j :: rest)).reverse
    else i :: continuation (fun last next => !less next last) i (j :: rest)
  | positions => positions

/-- Merges two sorted runs, the shorter into the longer: from the front or from the back. -/
def merge (as bs : List (Fin n)) : List (Fin n) :=
  if as.length ≤ bs.length then as.merge bs fun a b => !less b a
  else (as.reverse.merge bs.reverse fun a b => less b a).reverse

/-- Sorts a list that was left unsorted. -/
abbrev Sorter (n : Nat) := List (Fin n) → Option (List (Fin n))

/-- The positions of a run in order. -/
def Run.sort (sorter : Sorter n) (run : Run n) : Option (List (Fin n)) :=
  if run.isSorted then some run.positions else sorter run.positions

/-- Puts two neighbouring runs together.  Unsorted ones stay unsorted as long as there is room to
sort them together. -/
def join (sorter : Sorter n) (capacity : Nat) (left right : Run n) : Option (Run n) :=
  if !left.isSorted ∧ !right.isSorted ∧
      left.positions.length + right.positions.length ≤ capacity then
    some ⟨left.positions ++ right.positions, false⟩
  else do
    let as ← left.sort sorter
    let bs ← right.sort sorter
    return ⟨merge less as bs, true⟩

/-- The first run of a list.  One that is there already is taken if it has more than `shortest`
positions.  Otherwise a piece is sorted at once (`eager`) or left unsorted. -/
def cutRun (elementSize shortest : Nat) (eager : Bool) (positions : List (Fin n)) :
    Option (Run n) :=
  let run := firstRun less positions
  if shortest < run.length then some ⟨run, true⟩
  else if eager then (sortShort less elementSize (positions.take 32)).map (⟨·, true⟩)
  else some ⟨positions.take (shortest + 1), false⟩

/-- Cuts a list into runs. -/
def cutRuns (elementSize shortest : Nat) (eager : Bool) : List (Fin n) → Option (List (Run n))
  | [] => some []
  | i :: rest => do
    let run ← cutRun less elementSize shortest eager (i :: rest)
    return run :: (← cutRuns elementSize shortest eager (rest.drop (run.positions.length - 1)))
termination_by positions => positions.length
decreasing_by grind

/-- The depth in the tree of merges at which two neighbouring runs are merged: the number of leading
binary digits, of 64, that their midpoints have in common as fractions of the whole. -/
def depth (length start middle stop : Nat) : Nat :=
  let scale := ((1 <<< 62) + length - 1) / length
  let difference := (scale * (start + middle)) ^^^ (scale * (middle + stop))
  if difference = 0 then 64 else 63 - difference.log2

/-- Joins a run to those on the stack that are to be merged no higher than at a depth.  The stack
holds runs with the depth at which each is merged with its right neighbour. -/
def collapse (sorter : Sorter n) (capacity depth : Nat) (run : Run n) :
    List (Run n × Nat) → Option (Run n × List (Run n × Nat))
  | [] => some (run, [])
  | (left, d) :: stack =>
    if depth ≤ d then do collapse sorter capacity depth (← join less sorter capacity left run) stack
    else some (run, (left, d) :: stack)

/-- Joins all runs; `run` begins at `start`, and those before it are on the stack. -/
def joinAll (sorter : Sorter n) (capacity length start : Nat) (run : Run n)
    (stack : List (Run n × Nat)) : List (Run n) → Option (Run n)
  | [] => (collapse less sorter capacity 0 run stack).map Prod.fst
  | next :: runs => do
    let middle := start + run.positions.length
    let d := depth length start middle (middle + next.positions.length)
    let (joined, stack) ← collapse less sorter capacity d run stack
    joinAll sorter capacity length middle next ((joined, d) :: stack) runs

/-- One less than the length of a run that is taken as it is. -/
def shortestRun (length : Nat) : Nat :=
  if length ≤ 4096 then min (length - length / 2) 64 - 1
  else
    let shift := (1 + length.log2) / 2
    ((1 <<< shift) + (length >>> shift)) / 2 - 1

/-- Sorts by runs. -/
def sortRuns (elementSize capacity : Nat) (eager : Bool) (sorter : Sorter n) : Sorter n :=
  fun positions => do
    let length := positions.length
    match ← cutRuns less elementSize (shortestRun length) eager positions with
    | [] => return []
    | run :: runs => (← joinAll less sorter capacity length 0 run [] runs).sort sorter

/-! ## 4. Partitions -/

/-- The median of three positions. -/
def median (a b c : Fin n) : Fin n :=
  if less a b = less a c then if less b c = less a b then b else c else a

/-- A median of medians, from three groups of `size` places that begin at `a`, `b` and `c`. -/
def medianOfGroups (place : Nat → Fin n) (size a b c : Nat) : Fin n :=
  if size < 8 then median less (place a) (place b) (place c)
  else
    let m := size / 8
    let group a := medianOfGroups place m a (a + 4 * m) (a + 7 * m)
    median less (group a) (group b) (group c)
termination_by size
decreasing_by omega

/-- The position by which a list, which begins with `first`, is parted. -/
def pivot (first : Fin n) (positions : List (Fin n)) : Fin n :=
  let places := positions.toArray
  let size := positions.length / 8
  medianOfGroups less (fun i => places.getD i first) size 0 (4 * size) (7 * size)

/-- Sorts by partitions.  Nothing in the list is less than `least`; if the pivot is not greater,
then what is equal to it is in front.  After too many partitions it sorts by runs. -/
def sortParts (elementSize capacity : Nat) : Nat → Option (Fin n) → Sorter n
  | 0, _, positions =>
    if positions.length ≤ 32 then sortShort less elementSize positions
    else sortRuns less elementSize capacity true some positions
  | _, _, [] => some []
  | limit + 1, least, first :: rest =>
    let positions := first :: rest
    if positions.length ≤ 32 then sortShort less elementSize positions
    else
      let p := pivot less first positions
      let (smaller, others) := positions.partition fun i => i != p && less i p
      if least.any (fun i => !less i p) || smaller.isEmpty then do
        let (equal, greater) := positions.partition fun i => i == p || !less p i
        return equal ++ (← sortParts elementSize capacity limit none greater)
      else do
        let others ← sortParts elementSize capacity limit (some p) others
        return (← sortParts elementSize capacity limit least smaller) ++ others

/-! ## 5. Positions -/

/-- All positions in the order of the sort. -/
def positions (elementSize : Nat) : Option (List (Fin n)) :=
  let capacity := max (n - n / 2) (min n (8000000 / elementSize))
  let later : Sorter n := fun l =>
    sortParts less elementSize capacity (2 * (l.length ||| 1).log2) none l
  if n ≤ 20 then some (insertAll less [] (List.finRange n))
  else sortRuns less elementSize capacity (n ≤ 64) later (List.finRange n)

end Sorting

/-! ## 6. Elements -/

variable {α : Type}

/-- The answers of a comparison for two positions. -/
def lessAt {n : Nat} (cmp : α → α → Ordering) (elements : Vector α n) (i j : Fin n) : Bool :=
  cmp (elements.get i) (elements.get j) == .lt

/-- The positions of the elements in the order in which sorting puts them. -/
def sortedPositions (elementSize : Nat) (cmp : α → α → Ordering) (l : List α) :
    Option (List Nat) :=
  (Sorting.positions (lessAt cmp l.toArray.toVector) elementSize).map fun order =>
    order.map Fin.val

/-- The elements in ascending order. -/
def sortBy (elementSize : Nat) (cmp : α → α → Ordering) (l : List α) : Option (List α) :=
  let elements := l.toArray.toVector
  (Sorting.positions (lessAt cmp elements) elementSize).map fun order => order.map elements.get

end DocQuery
