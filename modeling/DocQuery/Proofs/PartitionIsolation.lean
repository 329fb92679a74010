/-
# Partitions are isolated

A request with a partition key is answered from what was last written at the places of that
partition, and from nothing else.

* A place lies in one partition (`StoredDocument.liesIn_of_samePlace`), so the last write of a
  place is the last of those that landed in its partition: what a request with a partition key can
  see are the last writes of `Store.landed` (`Store.inPartition_perform`).
* `Store.execute_landed` for selects and `Store.read_landed` for lookups give the answer as a
  function of these writes.

Writes elsewhere, refused insertions and other documents of the same id do not come into it, so
two runs that agree in these writes are told apart by no request (`Store.partitions_isolated`).
They agree in them as a LIST: the order of writes within the partition is seen, through the order
of the rows, and how they are interleaved with the other writes is not.

Without a partition key a request reads the whole container, and nothing of this holds.
-/
import DocQuery.Proofs.KeyedSelects

namespace DocQuery

namespace StoredDocument

/-- Whether a document is in this partition of the container. -/
def liesIn (d : StoredDocument) (container partition : String) : Bool :=
  d.container == container && d.partition == some partition

/-- A place lies in one partition. -/
theorem liesIn_of_samePlace {a b : StoredDocument} (container partition : String)
    (same : a.samePlace b = true) :
    a.liesIn container partition = b.liesIn container partition := by
  obtain ⟨hcontainer, -, hpartition⟩ := samePlace_iff.1 same
  rw [liesIn, liesIn, hcontainer, hpartition]

end StoredDocument

namespace Store

/-- What the accepted insertions of a run have written to a partition, in this order. -/
def landed (uses : List Use) (container partition : String) : List StoredDocument :=
  (written uses).filter (·.liesIn container partition)

/-! ## 1. What a request can see -/

/-- What a request with a partition key reads are the last writes that landed there. -/
theorem inPartition_perform (uses : List Use) (container partition : String) :
    ((perform uses).container container).filter (·.inPartition (some partition)) =
      StoredDocument.latest (landed uses container partition) := by
  have lies : ∀ d : StoredDocument,
      (d.inPartition (some partition) && d.container == container) =
        d.liesIn container partition := by
    intro d
    rw [StoredDocument.inPartition, Option.isNone_some, Bool.false_or, Bool.and_comm]
    rfl
  have ofPlace : ∀ a b : StoredDocument, a.samePlace b = true →
      a.liesIn container partition = b.liesIn container partition :=
    fun _ _ => StoredDocument.liesIn_of_samePlace container partition
  calc ((perform uses).container container).filter (·.inPartition (some partition))
      = (perform uses).documents.filter (·.liesIn container partition) := by
        rw [Store.container, List.filter_filter, List.filter_congr fun d _ => lies d]
    _ = StoredDocument.latest (landed uses container partition) := by
        rw [follows_perform uses, StoredDocument.filter_latest ofPlace]
        rfl

/-- A select in a partition runs over the last writes that landed there. -/
theorem execute_landed (uses : List Use) {r : QueryRequest} {partition : String}
    (inside : r.partitionKey = some partition) :
    (perform uses).execute r = r.select.run r.command.bindings r.layout
      ((StoredDocument.latest (landed uses r.container partition)).map (·.body)) := by
  rw [execute, scope, inside, inPartition_perform]

/-- A lookup in a partition finds the last write of its id that landed there. -/
theorem read_landed (uses : List Use) {r : LookupRequest} {partition : String}
    (inside : r.partitionKey = some partition) :
    (perform uses).read r =
      ((StoredDocument.latest (landed uses r.container partition)).find? (·.id == r.id)).map
        (.document ·.body) := by
  rw [← inPartition_perform, List.find?_filter, read, inside]
  refine congrArg (Option.map _) (List.find?_congr fun d _ => ?_)
  cases d.id == r.id <;> cases d.inPartition (some partition) <;> rfl

/-! ## 2. Two runs -/

/-- **No request tells two runs apart that have written the same to its partition.**  The runs may
differ in everything else: in what they wrote to other partitions and containers, under the same ids
too, in what was refused, and in the order of all this with the writes to the partition. -/
theorem partitions_isolated {uses uses' : List Use} {container partition : String}
    (alike : landed uses container partition = landed uses' container partition) :
    (∀ r : QueryRequest, r.container = container → r.partitionKey = some partition →
      (perform uses).execute r = (perform uses').execute r) ∧
    ∀ r : LookupRequest, r.container = container → r.partitionKey = some partition →
      (perform uses).read r = (perform uses').read r := by
  constructor
  · rintro r rfl inside
    rw [execute_landed uses inside, execute_landed uses' inside, alike]
  · rintro r rfl inside
    rw [read_landed uses inside, read_landed uses' inside, alike]

/-- Booklets share the container of the books and are all in the partition of the lent ones. -/
def bookletType : EntityType :=
  { bookType with name := "Booklet", partitionKey := some "Kind",
                  properties := bookType.properties ++ [⟨"Kind", .utf8, false, "kind", none⟩] }

/-- The books that are not lent are written as by `bookUses`.  Around them stand one that was lent
and is written over, one under the id of another, one that is refused, and one elsewhere. -/
def crowdedUses : List Use :=
  [.insert bookType (book "a|1" 2 true), .insert bookType (book "a" 1 false),
    .insert bookletType
      (.object [("kind", .string "true"), ("no", .ofInt 1), ("shelf", .string "a")]),
    .insert bookType (.array []), .insert bookType (book "a|1" 2 false),
    .insert { bookType with container := "cellar" } (book "a" 1 false),
    .insert bookType (book "a|1" 2 true)]

/-- The two runs differ in the other partitions, under the same ids. -/
theorem partitions_isolated_books :
    landed bookUses "books" "false" = landed crowdedUses "books" "false" ∧
    ∀ (layout : RowLayout) (command : Command) (s : Select) (id : String),
      (perform bookUses).execute ⟨"books", some "false", layout, command, s⟩ =
        (perform crowdedUses).execute ⟨"books", some "false", layout, command, s⟩ ∧
      (perform bookUses).read ⟨"books", some "false", id⟩ =
        (perform crowdedUses).read ⟨"books", some "false", id⟩ := by
  have alike : landed bookUses "books" "false" = landed crowdedUses "books" "false" := rfl
  obtain ⟨selects, lookups⟩ := partitions_isolated alike
  exact ⟨alike, fun layout command s id => ⟨selects _ rfl rfl, lookups _ rfl rfl⟩⟩

end Store

end DocQuery
