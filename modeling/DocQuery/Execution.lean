/-
# Executing selects

A select over a list of documents: filter, sort, project, drop repetitions, cut out the page.

* Ordinary orderings sort lexicographically, each in its direction, and stably.
* When the rows are ranked only scoring orderings rank: one by its score, several fused by the sum
  of reciprocal ranks.  The other orderings decide between rows of equal score.
* Each sort may fail where its comparison is no order; then there are no rows.
-/
import DocQuery.Command
import DocQuery.Config
import DocQuery.Evaluation
import DocQuery.Sorting

namespace DocQuery

/-- One raw result row. -/
inductive Row where
  | document (body : Json)
  | ordinal (values : List Json)

/-! ## 1. Sorting -/

/-- A document with the value of each ordering. -/
structure SortEntry where
  keys : List (OrderingTerm Expr × Json)
  document : Json

namespace SortEntry

def scores (e : SortEntry) : List (OrderingTerm Expr × Json) := e.keys.filter (·.1.expr.isScoring)

def plainKeys (e : SortEntry) : List (OrderingTerm Expr × Json) :=
  e.keys.filter fun k => !k.1.expr.isScoring

end SortEntry

def directed (ascending : Bool) (o : Ordering) : Ordering := if ascending then o else o.swap

/-- Compares the values of the same orderings lexicographically, each in its direction. -/
def compareKeys : List (OrderingTerm Expr × Json) → List (OrderingTerm Expr × Json) → Ordering
  | (o, a) :: as, (_, b) :: bs => (directed o.ascending (a.compare b)).then (compareKeys as bs)
  | _, _ => .eq

/-- The score that ranks by a single ordering: the larger comes first. -/
def singleScore (key : OrderingTerm Expr × Json) : Double :=
  let score := key.2.asDouble?.getD .zero
  if key.1.ascending then score.neg else score

/-- The order of a value of an ordering, in its direction. -/
def directedKey (k l : OrderingTerm Expr × Json) : Ordering :=
  directed k.1.ascending (k.2.compare l.2)

/-- The share of a document that stands behind `rank` others: `1 / (60 + rank)`, with ranks counted
from 1. -/
def share (rank : Nat) : Double := (Double.ofInt 1).div (.ofInt (61 + rank))

/-- The shares that one scoring ordering gives to the documents.  Positions are sorted. -/
def reciprocalRanks (column : List (OrderingTerm Expr × Json)) : Option (List Double) :=
  (sortedPositions 8 directedKey column).map fun order =>
    (List.range column.length).map fun i => share (order.idxOf i)

/-- Adds to the sums the shares that the scoring ordering at a position gives. -/
def addShares (scores : List (List (OrderingTerm Expr × Json))) (sums : List Double)
    (position : Nat) : Option (List Double) :=
  (reciprocalRanks (scores.filterMap fun s => s[position]?)).map fun shares =>
    sums.zipWith Double.add shares

/-- The fused score of each document. -/
def fusedScores (entries : List SortEntry) : Option (List Double) :=
  match entries.map SortEntry.scores with
  | [] => some []
  | first :: rest =>
    if first.length = 1 then
      some ((first :: rest).map fun s => (s.head?.map singleScore).getD .zero)
    else (List.range first.length).foldlM (addShares (first :: rest))
      ((first :: rest).map fun _ => .zero)

/-- Ranks by score, larger first, and breaks ties by the plain orderings. -/
def compareRanked (a b : SortEntry × Double) : Ordering :=
  ((b.2.compare? a.2).getD .eq).then (compareKeys a.1.plainKeys b.1.plainKeys)

/-- The entries in order.  Ranked ones are sorted by their positions, of 8 bytes each, and others as
they are: the values with the document take 56 bytes. -/
def sortEntries (scoreOrdered : Bool) (entries : List SortEntry) : Option (List SortEntry) :=
  if scoreOrdered then do
    let scores ← fusedScores entries
    return (← sortBy 8 compareRanked (entries.zip scores)).map Prod.fst
  else sortBy 56 (fun a b => compareKeys a.keys b.keys) entries

/-! ## 2. The steps of a select -/

/-- Rows are equal when their values are. -/
def isRepeated (kept : List (List Json)) (row : List Json) : Bool :=
  kept.any fun k => Json.sameItems k row

/-- Drops every row that is equal to an earlier one; `kept` are the rows so far, in reverse. -/
def dropRepeated (kept : List (List Json)) : List (List Json) → List (List Json)
  | [] => kept.reverse
  | row :: rest =>
    if isRepeated kept row then dropRepeated kept rest else dropRepeated (row :: kept) rest

namespace SelectOf

/-- The environment of a document. -/
def environment (s : Select) (parameters : Dictionary Json) (document : Json) : Environment :=
  ⟨s.source, document, parameters⟩

/-- Whether the predicate keeps a document. -/
def keeps (s : Select) (parameters : Dictionary Json) (document : Json) : Except RunError Bool :=
  match s.predicate with
  | none => .ok true
  | some e => (e.eval (s.environment parameters document)).map Json.isTrue

def filterDocuments (s : Select) (parameters : Dictionary Json) :
    List Json → Except RunError (List Json)
  | [] => .ok []
  | document :: rest => do
    let keep ← s.keeps parameters document
    let rest ← s.filterDocuments parameters rest
    return if keep then document :: rest else rest

def sortEntry (s : Select) (parameters : Dictionary Json) (document : Json) :
    Except RunError SortEntry := do
  let keys ← s.orderings.mapM fun o => do
    return (o, ← o.expr.eval (s.environment parameters document))
  return ⟨keys, document⟩

def sortDocuments (s : Select) (parameters : Dictionary Json) (documents : List Json) :
    Except RunError (List Json) :=
  if s.orderings.isEmpty then .ok documents
  else do
    let entries ← documents.mapM (s.sortEntry parameters)
    let sorted ← RunError.ofSort (sortEntries s.isScoreOrdered entries)
    return sorted.map (·.document)

/-- A bound of the page, evaluated without a document. -/
def bound (s : Select) (parameters : Dictionary Json) (what : String) (e : Expr) :
    Except RunError Nat := do
  let v ← e.eval (s.environment parameters .null)
  match v.asNat? with
  | some n => .ok n
  | none => .error (.storage (.badBound what v))

/-- A bound that may be absent. -/
def bound? (s : Select) (parameters : Dictionary Json) (what : String) :
    Option Expr → Except RunError (Option Nat)
  | none => .ok none
  | some e => (s.bound parameters what e).map some

/-- The values that a select projects from a document. -/
def project (s : Select) (parameters : Dictionary Json) (document : Json) :
    Except RunError (List Json) :=
  s.projection.mapM fun p => match p.item with
    | .scalar e => e.eval (s.environment parameters document)
    | .entity _ path => .ok (document.readPath path)

/-- The row of projected values: a list, or a document, which is the value itself when there is
only one and an object by the projections' names otherwise. -/
def row (s : Select) (layout : RowLayout) (values : List Json) : Row :=
  match layout with
  | .ordinal => .ordinal values
  | .document => match s.projection, values with
    | [_], [value] => .document value
    | projection, values =>
      .document (.ofDictionary (.ofList ((projection.map (·.name)).zip values)))

/-- Runs a select over the documents in scope. -/
def run (s : Select) (parameters : Dictionary Json) (layout : RowLayout) (documents : List Json) :
    Except RunError (List Row) := do
  let documents ← s.filterDocuments parameters documents
  let documents ← s.sortDocuments parameters documents
  let offset ← s.bound? parameters "OFFSET" s.offset
  let limit ← s.bound? parameters "LIMIT" s.limit
  let rows ← documents.mapM (s.project parameters)
  let rows := if s.distinct then dropRepeated [] rows else rows
  let rest := rows.drop (offset.getD 0)
  let page := match limit with
    | none => rest
    | some n => rest.take n
  return page.map (s.row layout)

end SelectOf

/-- The values of a command's parameters by their names without the `@`. -/
def Command.bindings (c : Command) : Dictionary Json :=
  .ofList (c.parameters.map fun e =>
    (String.ofList (e.1.toList.dropWhile (· == '@')), e.2.toJson))

end DocQuery
